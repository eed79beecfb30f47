import Leasehold.Text.Decimal
import Mathlib.Algebra.Group.Nat.Defs

/-!
# Decimal text read back

What is written in decimal, padded or not, is a run of digits whose value is the
number, and a reader that takes digits up to a limit takes exactly these as long
as the limit or the next character stops it there. A run of digits is what its value
is written as exactly if it has no zeros at the front.
-/

namespace Leasehold.Text

/-- Only zero is written with a zero at the front. -/
theorem head?_decimal_ne_zero {n : Nat} (positive : 0 < n) : (decimal n).head? ≠ some '0' := by
  induction n using Nat.strongRecOn with
  | ind n ih =>
    by_cases small : n < 10
    · have digits : ∀ d < 10, 0 < d → (decimal d).head? ≠ some '0' := by decide
      exact digits n small positive
    · have front : (decimal (n / 10)).head? ≠ some '0' := ih (n / 10) (by omega) (by omega)
      have split : decimal n = decimal (n / 10) ++ [(n % 10).digitChar] :=
        Nat.toDigits_of_base_le (by decide) (by omega)
      cases shown : decimal (n / 10) with
      | nil => exact absurd shown (decimal_ne_nil _)
      | cons c cs => simpa [split, shown] using front

theorem readDecimal?_eq_some_iff {cs : List Char} {n : Nat} :
    readDecimal? cs = some n ↔
      cs ≠ [] ∧ (∀ c ∈ cs, c.isDigit) ∧ Nat.ofDigitChars 10 cs 0 = n := by
  cases cs with
  | nil => simp [readDecimal?]
  | cons c cs => simp [readDecimal?]

/-! ## Plain numerals -/

/-- That a text is written as numbers are: digits, with a zero at the front only of zero
itself. -/
structure IsNumeral (cs : List Char) : Prop where
  nonempty : cs ≠ []
  digits : ∀ c ∈ cs, c.isDigit
  front : cs.head? = some '0' → cs = ['0']

instance (cs : List Char) : Decidable (IsNumeral cs) :=
  decidable_of_iff (cs ≠ [] ∧ cs.all Char.isDigit ∧ (cs.head? = some '0' → cs = ['0']))
    ⟨fun ⟨nonempty, digits, front⟩ => ⟨nonempty, List.all_eq_true.mp digits, front⟩,
      fun ⟨nonempty, digits, front⟩ => ⟨nonempty, List.all_eq_true.mpr digits, front⟩⟩

theorem isNumeral_decimal (n : Nat) : IsNumeral (decimal n) := by
  refine ⟨decimal_ne_nil n, fun _ => isDigit_of_mem_decimal, fun front => ?_⟩
  rcases Nat.eq_zero_or_pos n with rfl | positive
  · rfl
  · exact absurd front (head?_decimal_ne_zero positive)

theorem toNat_of_isDigit {c : Char} (digit : c.isDigit) :
    '0'.toNat ≤ c.toNat ∧ c.toNat < '0'.toNat + 10 := by
  have bounds : 48 ≤ c.toNat ∧ c.toNat ≤ 57 := by
    simpa [Char.isDigit, UInt32.le_iff_toNat_le] using digit
  have zero : '0'.toNat = 48 := rfl
  omega

/-- A digit is that of its value. -/
theorem decimal_of_isDigit {c : Char} (digit : c.isDigit) :
    decimal (c.toNat - '0'.toNat) = [c] := by
  have shown : ∀ n < '0'.toNat + 10, '0'.toNat ≤ n →
      decimal (n - '0'.toNat) = [Char.ofNat n] := by decide
  rcases toNat_of_isDigit digit with ⟨first, last⟩
  rw [shown c.toNat last first, Char.ofNat_toNat]

/-- Digits read after a number are written after it. -/
theorem decimal_ofDigitChars_of_pos {cs : List Char} (digits : ∀ c ∈ cs, c.isDigit) {n : Nat}
    (positive : 0 < n) : decimal (Nat.ofDigitChars 10 cs n) = decimal n ++ cs := by
  induction cs generalizing n with
  | nil => simp
  | cons c cs ih =>
    rw [List.forall_mem_cons] at digits
    have value : c.toNat - '0'.toNat < 10 := by
      have bounds := toNat_of_isDigit digits.1
      omega
    have next : decimal (10 * n + (c.toNat - '0'.toNat)) = decimal n ++ [c] := by
      rw [← decimal_of_isDigit digits.1]
      exact (Nat.toDigits_append_toDigits (by decide) positive value).symm
    rw [Nat.ofDigitChars_cons, ih digits.2 (by omega), next, List.append_assoc]
    rfl

/-- A plain numeral is how its value is written. -/
theorem decimal_ofDigitChars {cs : List Char} (numeral : IsNumeral cs) :
    decimal (Nat.ofDigitChars 10 cs 0) = cs := by
  rcases numeral with ⟨nonempty, digits, front⟩
  cases cs with
  | nil => exact absurd rfl nonempty
  | cons c cs =>
    rw [List.forall_mem_cons] at digits
    rw [Nat.ofDigitChars_cons, Nat.mul_zero, Nat.zero_add]
    rcases Nat.eq_zero_or_pos (c.toNat - '0'.toNat) with zero | positive
    · have written := decimal_of_isDigit digits.1
      rw [zero] at written
      obtain rfl : '0' = c := List.head_eq_of_cons_eq written
      obtain rfl : cs = [] := List.tail_eq_of_cons_eq (front rfl)
      rfl
    · rw [decimal_ofDigitChars_of_pos digits.2 positive, decimal_of_isDigit digits.1]
      rfl

/-! ## Padding -/

theorem padded_eq (width n : Nat) :
    padded width n = List.replicate (width - (decimal n).length) '0' ++ decimal n :=
  rfl

theorem padded_ne_nil (width n : Nat) : padded width n ≠ [] := by
  simp [padded_eq, decimal_ne_nil]

theorem isDigit_of_mem_padded {width n : Nat} {c : Char} (member : c ∈ padded width n) :
    c.isDigit := by
  rw [padded_eq, List.mem_append] at member
  rcases member with zero | digit
  · rw [List.eq_of_mem_replicate zero]
    decide
  · exact isDigit_of_mem_decimal digit

/-- Zeros at the front do not change the value. -/
@[simp]
theorem ofDigitChars_padded (width n : Nat) : Nat.ofDigitChars 10 (padded width n) 0 = n := by
  rw [padded_eq, Nat.ofDigitChars_append, Nat.ofDigitChars_replicate_zero, Nat.mul_zero]
  exact Nat.ofDigitChars_ten_toDigits

/-- Any digits are their value, padded. -/
theorem eq_padded {digits : List Char} (nonempty : digits ≠ []) (all : ∀ c ∈ digits, c.isDigit) :
    digits = padded digits.length (Nat.ofDigitChars 10 digits 0) := by
  induction digits with
  | nil => exact absurd rfl nonempty
  | cons c cs ih =>
    by_cases plain : c = '0' → cs = []
    · have numeral : IsNumeral (c :: cs) :=
        ⟨nonempty, all, fun front => by
          obtain rfl : c = '0' := Option.some.inj front
          rw [plain rfl]⟩
      simp [padded_eq, decimal_ofDigitChars numeral]
    · -- A zero that is not all there is adds one to the padding of the rest.
      obtain ⟨rfl, more⟩ := Classical.not_imp.mp plain
      have rest := ih more (List.forall_mem_cons.mp all).2
      have same : Nat.ofDigitChars 10 ('0' :: cs) 0 = Nat.ofDigitChars 10 cs 0 := rfl
      have wide := congrArg List.length rest
      rw [padded_eq, List.length_append, List.length_replicate] at wide
      have longer : cs.length + 1 - (decimal (Nat.ofDigitChars 10 cs 0)).length =
          cs.length - (decimal (Nat.ofDigitChars 10 cs 0)).length + 1 := by
        have positive := List.length_pos_iff.mpr more
        omega
      rw [same, padded_eq, List.length_cons, longer, List.replicate_succ, List.cons_append,
        ← padded_eq, ← rest]

/-- A number that fits is as wide as it is padded to. -/
theorem length_padded {width n : Nat} (wide : 0 < width) (fits : n < 10 ^ width) :
    (padded width n).length = width := by
  have short : (decimal n).length ≤ width :=
    (Nat.length_toDigits_le_iff (by decide) wide).mpr fits
  simp [padded_eq]
  omega

/-- Digits stand for less than the power of ten of their number. -/
theorem ofDigitChars_lt {digits : List Char} (all : ∀ c ∈ digits, c.isDigit) (front : Nat) :
    Nat.ofDigitChars 10 digits front < 10 ^ digits.length * (front + 1) := by
  induction digits generalizing front with
  | nil => simp
  | cons c digits ih =>
    rw [List.forall_mem_cons] at all
    have value : c.toNat - '0'.toNat ≤ 9 := by
      have bounds := toNat_of_isDigit all.1
      omega
    have step := ih all.2 (10 * front + (c.toNat - '0'.toNat))
    rw [Nat.ofDigitChars_cons, List.length_cons, Nat.pow_succ, Nat.mul_assoc]
    refine Nat.lt_of_lt_of_le step (Nat.mul_le_mul_left _ ?_)
    omega

/-! ## Taking digits -/

/-- What comes after a run of digits does not go on with it. -/
def EndsDigits (rest : List Char) : Prop :=
  ∀ c ∈ rest.head?, c.isDigit = false

@[simp]
theorem endsDigits_nil : EndsDigits [] := by
  simp [EndsDigits]

@[simp]
theorem endsDigits_cons (c : Char) (rest : List Char) :
    EndsDigits (c :: rest) ↔ c.isDigit = false := by
  simp [EndsDigits]

theorem takeWhile_digits_append {digits rest : List Char} (all : ∀ c ∈ digits, c.isDigit)
    (ends : EndsDigits rest) : (digits ++ rest).takeWhile Char.isDigit = digits := by
  rw [List.takeWhile_append_of_pos all]
  cases rest with
  | nil => simp
  | cons c rest => simp_all

theorem dropWhile_digits_append {digits rest : List Char} (all : ∀ c ∈ digits, c.isDigit)
    (ends : EndsDigits rest) : (digits ++ rest).dropWhile Char.isDigit = rest := by
  rw [List.dropWhile_append_of_pos all]
  cases rest with
  | nil => rfl
  | cons c rest => simp_all

theorem EndsDigits.take {rest : List Char} (ends : EndsDigits rest) (n : Nat) :
    EndsDigits (rest.take n) := by
  cases n with
  | zero => simp
  | succ n => cases rest <;> simp_all

/-- Digits are taken as far as the limit allows, and the limit or the next
character ends them. -/
theorem takeDecimal?_append {most : Nat} {digits rest : List Char} (nonempty : digits ≠ [])
    (all : ∀ c ∈ digits, c.isDigit) (short : digits.length ≤ most)
    (ends : digits.length = most ∨ EndsDigits rest) :
    takeDecimal? most (digits ++ rest) = some (Nat.ofDigitChars 10 digits 0, rest) := by
  have taken : ((digits ++ rest).take most).takeWhile Char.isDigit = digits := by
    rw [List.take_append, List.take_of_length_le short]
    refine takeWhile_digits_append all ?_
    rcases ends with full | ends
    · simp [full]
    · exact ends.take _
  rw [takeDecimal?, taken, readDecimal?_eq_some nonempty all]
  simp

/-- What was taken is a number of as many digits as the text lost, within the limit. -/
theorem takeDecimal?_bound {most n : Nat} {cs rest : List Char}
    (taken : takeDecimal? most cs = some (n, rest)) :
    n < 10 ^ (cs.length - rest.length) ∧ cs.length - rest.length ≤ most := by
  unfold takeDecimal? at taken
  cases shown : (cs.take most).takeWhile Char.isDigit with
  | nil => simp [shown, readDecimal?] at taken
  | cons c digits =>
    have all : ∀ d ∈ c :: digits, d.isDigit := by
      rw [← shown]
      exact List.all_eq_true.mp List.all_takeWhile
    have within : (c :: digits).length ≤ (cs.take most).length := by
      rw [← shown]
      exact (List.takeWhile_sublist _).length_le
    rw [List.length_take] at within
    simp only [shown, readDecimal?_eq_some (List.cons_ne_nil c digits) all, Option.map_some,
      Option.some.injEq, Prod.mk.injEq] at taken
    have value := ofDigitChars_lt all 0
    have left : cs.length - rest.length = (c :: digits).length := by
      rw [← taken.2, List.length_drop]
      omega
    rw [left, ← taken.1]
    constructor
    · simpa using value
    · omega

theorem takeDecimal?_padded {width n : Nat} (wide : 0 < width) (fits : n < 10 ^ width)
    (rest : List Char) : takeDecimal? width (padded width n ++ rest) = some (n, rest) := by
  have length := length_padded wide fits
  rw [takeDecimal?_append (padded_ne_nil width n) (fun _ => isDigit_of_mem_padded)
    (Nat.le_of_eq length) (.inl length), ofDigitChars_padded]

end Leasehold.Text
