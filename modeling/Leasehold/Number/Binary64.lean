import Leasehold.Number.Rounding

/-!
# Binary floating-point numbers

A finite number of the format with 53 significant bits and exponents from -1074
to 971, kept exactly as a sign, a whole significand and an exponent of two.
Every operation is the exact result rounded to the nearest such number, a half
going to the even significand. Nothing here is an approximation, so the results
can be reasoned about as whole-number arithmetic.
-/

namespace Leasehold

/-- The number `± significand * 2 ^ exponent`. -/
structure Binary64 where
  negative : Bool
  significand : Nat
  exponent : Int
  deriving DecidableEq, Repr, Inhabited

namespace Binary64

/-- The least exponent. -/
def minExponent : Int :=
  -1074

/-- The greatest exponent. -/
def maxExponent : Int :=
  971

/-- One more than the greatest significand. -/
def significandBound : Nat :=
  Nat.pow 2 53

/-- Zero, with a sign. -/
def zero (negative : Bool) : Binary64 :=
  ⟨negative, 0, minExponent⟩

/-- The quotient `num / (den * 2 ^ exponent)` rounded to a whole number. -/
def scaledQuotient (num den : Nat) (exponent : Int) : Nat :=
  if 0 ≤ exponent then Number.roundDiv num (den * Nat.pow 2 exponent.toNat)
  else Number.roundDiv (num * Nat.pow 2 (-exponent).toNat) den

/-- The exponent of two at which `num / den` has 53 bits, or the least one. -/
def quotientExponent (num den : Nat) : Int :=
  let estimate : Int := (Nat.log2 num : Int) - Nat.log2 den - 52
  let reaches (exponent : Int) : Bool :=
    if 0 ≤ exponent then Nat.pow 2 52 * (den * Nat.pow 2 exponent.toNat) ≤ num
    else Nat.pow 2 52 * den ≤ num * Nat.pow 2 (-exponent).toNat
  max minExponent (if reaches estimate then estimate else estimate - 1)

/-- The number nearest to `± num / den`, if it is not beyond the greatest. -/
def ofRatio? (negative : Bool) (num den : Nat) : Option Binary64 :=
  if num = 0 then some (zero negative)
  else
    let exponent := quotientExponent num den
    let significand := scaledQuotient num den exponent
    let result : Binary64 :=
      if significand = significandBound then ⟨negative, Nat.pow 2 52, exponent + 1⟩
      else ⟨negative, significand, exponent⟩
    if result.exponent ≤ maxExponent then some result else none

/-- The number nearest to a natural number. -/
def ofNat? (n : Nat) : Option Binary64 :=
  ofRatio? false n 1

/-- The numerator and the denominator of the magnitude. -/
def ratio (x : Binary64) : Nat × Nat :=
  if 0 ≤ x.exponent then (x.significand * Nat.pow 2 x.exponent.toNat, 1)
  else (x.significand, Nat.pow 2 (-x.exponent).toNat)

/-- The rounded product. -/
def mul? (x y : Binary64) : Option Binary64 :=
  let (a, b) := x.ratio
  let (c, d) := y.ratio
  ofRatio? (x.negative != y.negative) (a * c) (b * d)

/-- The rounded quotient by a number that is not zero. -/
def div? (x y : Binary64) : Option Binary64 :=
  let (a, b) := x.ratio
  let (c, d) := y.ratio
  ofRatio? (x.negative != y.negative) (a * d) (b * c)

/-- The rounded sum of two magnitudes. -/
def addMagnitudes? (x y : Binary64) : Option Binary64 :=
  let (a, b) := x.ratio
  let (c, d) := y.ratio
  ofRatio? false (a * d + c * b) (b * d)

/-- The magnitude in units of `10 ^ -places`, rounded to a whole number. -/
def decimalPlaces (x : Binary64) (places : Nat) : Nat :=
  let (num, den) := x.ratio
  Number.roundDiv (num * Nat.pow 10 places) den

end Binary64

end Leasehold
