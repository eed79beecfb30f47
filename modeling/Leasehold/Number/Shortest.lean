import Leasehold.Number.Binary64

/-!
# The fewest digits that read back

A floating-point number stands for every real number that rounds to it. Its
shortest decimal is the decimal with the fewest digits in that interval and, of
those, the nearest to the number.
-/

namespace Leasehold

/-- The number `digits * 10 ^ exponent`. -/
structure Decimal where
  digits : Nat
  exponent : Int
  deriving DecidableEq, Repr

/-- A decimal without zeros at the end of its digits; `fuel` bounds their number. -/
def Decimal.dropZeros (d : Decimal) : (fuel : Nat) → Decimal
  | 0 => d
  | fuel + 1 =>
    if d.digits ≠ 0 ∧ d.digits % 10 = 0 then dropZeros ⟨d.digits / 10, d.exponent + 1⟩ fuel else d

namespace Binary64

/-- The ends of the interval of reals that round to a number, as multiples of
`2 ^ (exponent - 2)`. Below a power of two the neighbour is half as far. -/
def interval (x : Binary64) : Nat × Nat :=
  let narrow := x.significand = Nat.pow 2 52 ∧ minExponent < x.exponent
  (if narrow then 4 * x.significand - 1 else 4 * x.significand - 2, 4 * x.significand + 2)

/-- Whether a decimal rounds to a number that is not zero. The ends of the
interval do so if the significand is even. -/
def roundsTo (x : Binary64) (d : Decimal) : Bool :=
  let (low, high) := x.interval
  let binary := x.exponent - 2
  let scale (n : Nat) : Nat := n * Nat.pow 2 binary.toNat * Nat.pow 10 (-d.exponent).toNat
  let value := d.digits * Nat.pow 10 d.exponent.toNat * Nat.pow 2 (-binary).toNat
  if x.significand % 2 = 0 then scale low ≤ value && value ≤ scale high
  else scale low < value && value < scale high

/-- The exponent of ten of the first digit of `num / den`. -/
def leadingExponent (num den : Nat) : Int :=
  let reaches (exponent : Int) : Bool :=
    den * Nat.pow 10 exponent.toNat ≤ num * Nat.pow 10 (-exponent).toNat
  let estimate : Int := ((Nat.log2 num : Int) - Nat.log2 den) * 30103 / 100000
  if reaches (estimate + 1) then estimate + 1
  else if reaches estimate then estimate
  else if reaches (estimate - 1) then estimate - 1
  else estimate - 2

/-- The two neighbours of `num / den` among the multiples of `10 ^ exponent`,
the nearer first; of two as near, the even one. -/
def neighbours (num den : Nat) (exponent : Int) : List Decimal :=
  let n := num * Nat.pow 10 (-exponent).toNat
  let d := den * Nat.pow 10 exponent.toNat
  let below := n / d
  if Number.roundDiv n d = below then [⟨below, exponent⟩, ⟨below + 1, exponent⟩]
  else [⟨below + 1, exponent⟩, ⟨below, exponent⟩]

/-- The fewest digits of a number that is not zero, looking at so many more
digits than one at most. -/
def shortestFrom (x : Binary64) (leading : Int) (places : Nat) : Nat → Decimal
  | 0 => ⟨x.ratio.1 / x.ratio.2, 0⟩
  | more + 1 =>
    let found := (neighbours x.ratio.1 x.ratio.2 (leading - places)).find? x.roundsTo
    match found with
    | some d => d
    | none => shortestFrom x leading (places + 1) more

/-- The decimal with the fewest digits that rounds to a number, and of those
the nearest; zero for zero. Seventeen digits always suffice. -/
def shortest (x : Binary64) : Decimal :=
  if x.significand = 0 then ⟨0, 0⟩
  else (shortestFrom x (leadingExponent x.ratio.1 x.ratio.2) 0 17).dropZeros 17

end Binary64

end Leasehold
