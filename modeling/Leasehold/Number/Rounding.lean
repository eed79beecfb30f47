/-!
# Rounding a quotient

The nearest whole number to a quotient, a half going to the even neighbour.
-/

namespace Leasehold.Number

/-- The nearest whole number to `num / den`; of two as near, the even one. -/
def roundDiv (num den : Nat) : Nat :=
  let below := num / den
  let twice := 2 * (num % den)
  if twice < den then below
  else if den < twice then below + 1
  else below + below % 2

/-- A rounded quotient is at most a half away from the quotient. -/
theorem roundDiv_near (num : Nat) {den : Nat} (positive : 0 < den) :
    2 * (roundDiv num den * den) ≤ 2 * num + den ∧
      2 * num ≤ 2 * (roundDiv num den * den) + den := by
  have split := Nat.div_add_mod' num den
  have small := Nat.mod_lt num positive
  have parity := Nat.mod_two_eq_zero_or_one (num / den)
  simp only [roundDiv]
  generalize num / den = below at *
  generalize num % den = rest at *
  have next : (below + 1) * den = below * den + den := Nat.succ_mul below den
  split
  · omega
  · split
    · omega
    · rcases parity with even | odd
      · rw [even, Nat.add_zero]
        omega
      · rw [odd]
        omega

/-- Of the two neighbours of a half, the even one is taken. -/
theorem roundDiv_half_even (num den : Nat) (half : 2 * (num % den) = den) :
    roundDiv num den % 2 = 0 := by
  simp only [roundDiv, half, Nat.lt_irrefl, if_false]
  omega

end Leasehold.Number
