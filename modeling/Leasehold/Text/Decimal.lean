/-!
# Decimal text

Natural numbers are written in decimal without leading zeros, or padded with
zeros to a width. Reading takes any non-empty run of ASCII digits.
-/

namespace Leasehold.Text

/-- The decimal digits of a number, without leading zeros. -/
def decimal (n : Nat) : List Char :=
  Nat.toDigits 10 n

/-- A number in at least `width` digits. -/
def padded (width n : Nat) : List Char :=
  List.leftpad width '0' (decimal n)

/-- The number that a non-empty run of digits stands for. -/
def readDecimal? : List Char → Option Nat
  | [] => none
  | c :: cs => if (c :: cs).all Char.isDigit then some (Nat.ofDigitChars 10 (c :: cs) 0) else none

/-- Reads between one and `most` digits and gives the rest of the text. -/
def takeDecimal? (most : Nat) (cs : List Char) : Option (Nat × List Char) :=
  let digits := (cs.take most).takeWhile Char.isDigit
  (readDecimal? digits).map fun n => (n, cs.drop digits.length)

theorem decimal_ne_nil (n : Nat) : decimal n ≠ [] := by
  intro empty
  have length := Nat.length_toDigits_pos (b := 10) (n := n)
  rw [decimal] at empty
  rw [empty] at length
  exact Nat.lt_irrefl 0 length

theorem isDigit_of_mem_decimal {n : Nat} {c : Char} (member : c ∈ decimal n) : c.isDigit :=
  Nat.isDigit_of_mem_toDigits (by decide) (by decide) member

theorem readDecimal?_eq_some {cs : List Char} (nonempty : cs ≠ [])
    (digits : ∀ c ∈ cs, c.isDigit) : readDecimal? cs = some (Nat.ofDigitChars 10 cs 0) := by
  cases cs with
  | nil => exact absurd rfl nonempty
  | cons c cs => exact if_pos (List.all_eq_true.2 digits)

@[simp]
theorem readDecimal?_decimal (n : Nat) : readDecimal? (decimal n) = some n := by
  rw [readDecimal?_eq_some (decimal_ne_nil n) fun c member => isDigit_of_mem_decimal member]
  exact congrArg some Nat.ofDigitChars_ten_toDigits

theorem decimal_injective {m n : Nat} (same : decimal m = decimal n) : m = n :=
  Option.some.inj ((readDecimal?_decimal m).symm.trans (same ▸ readDecimal?_decimal n))

end Leasehold.Text
