import Leasehold.Json.Raw
import Leasehold.Number.Shortest
import Leasehold.Text.Decimal

/-!
# JSON numbers

A number without point and exponent is a whole number if it fits into 64 bits,
as an unsigned one or with a minus sign as a signed one. Every other number is a
floating-point number, found by scaling the leading digits by a power of ten, so
the last bit of a long number need not be the nearest one. A floating-point
number is written with the fewest digits that read back.
-/

namespace Leasehold.Json

/-- The value of a number. -/
inductive Number where
  | integer (value : Int)
  | float (value : Binary64)
  deriving DecidableEq, Repr

namespace Number

/-! ## Reading -/

/-- The greatest whole number. -/
def greatest : Nat :=
  Nat.pow 2 64 - 1

/-- Whether another digit keeps a whole number within 64 bits. -/
def fits (significand : Nat) (digit : Nat) : Bool :=
  significand * 10 + digit ≤ greatest

/-- Collects digits while they fit; gives the number and the digits left over. -/
def collect (significand : Nat) : List Char → Nat × List Char
  | [] => (significand, [])
  | c :: cs =>
    let digit := c.toNat - '0'.toNat
    if fits significand digit then collect (significand * 10 + digit) cs
    else (significand, c :: cs)

/-- The greatest power of ten in reach of one multiplication or division. -/
def greatestPower : Nat :=
  308

/-- A power of ten in the range. -/
def powerOfTen (exponent : Nat) : Option Binary64 :=
  Binary64.ofNat? (Nat.pow 10 exponent)

/-- Divides by a power of ten, in steps that stay in reach. Nothing is left of a
number after a few such steps, which bounds them by `steps`. -/
def scaleDown (x : Binary64) (exponent : Nat) : (steps : Nat) → Option Binary64
  | 0 => some (.zero x.negative)
  | steps + 1 =>
    if exponent ≤ greatestPower then (powerOfTen exponent).bind x.div?
    else if x.significand = 0 then some x
    else do scaleDown (← x.div? (← powerOfTen greatestPower)) (exponent - greatestPower) steps

/-- The floating-point number `± significand * 10 ^ exponent`, unless it is
beyond the greatest. -/
def scale (negative : Bool) (significand : Nat) (exponent : Int) : Option Binary64 := do
  let x : Binary64 := { (← Binary64.ofNat? significand) with negative }
  if 0 ≤ exponent then
    if exponent ≤ greatestPower then x.mul? (← powerOfTen exponent.toNat)
    else if x.significand = 0 then some x
    else none
  else scaleDown x (-exponent).toNat 8

/-- The value of an exponent's digits; none if it is 2147483648 or more. -/
def exponentValue? (digits : List Char) : Option Nat :=
  let n := Nat.ofDigitChars 10 digits 0
  if n < 2147483648 then some n else none

/-- The value of a number as it is written. -/
def ofLiteral? (literal : NumberLiteral) : Option Number :=
  let (whole, beyond) := collect 0 literal.whole
  match literal.fraction, literal.exponent, beyond with
  | none, none, [] =>
    if !literal.negative then some (.integer whole)
    else if 1 ≤ whole ∧ whole ≤ Nat.pow 2 63 then some (.integer (-(whole : Int)))
    else (scale true whole 0).map .float
  | fraction, exponent, beyond =>
    let (significand, left) := collect whole (fraction.getD [])
    let shift : Int := beyond.length - ((fraction.getD []).length - left.length : Nat)
    match exponent with
    | none => (scale literal.negative significand shift).map .float
    | some (negative, digits) =>
      match exponentValue? digits with
      | some n =>
        (scale literal.negative significand (if negative then shift - n else shift + n)).map .float
      | none =>
        if significand = 0 ∨ negative then some (.float (.zero literal.negative)) else none

/-! ## Writing -/

/-- Where floating-point numbers are written without exponent: from the power
of ten `leastPositional` of the first digit up to `greatestPositional`. -/
def leastPositional : Int :=
  -5

@[inherit_doc leastPositional]
def greatestPositional : Int :=
  15

/-- A magnitude of so many digits, the first of which counts `10 ^ leading`. -/
def floatText (digits : List Char) (leading : Int) : List Char :=
  if leastPositional ≤ leading ∧ leading ≤ greatestPositional then
    if leading < 0 then
      '0' :: '.' :: List.replicate (-leading - 1).toNat '0' ++ digits
    else
      let places := leading.toNat + 1
      if digits.length ≤ places then
        digits ++ List.replicate (places - digits.length) '0' ++ ['.', '0']
      else digits.take places ++ '.' :: digits.drop places
  else
    let mantissa := match digits with
      | [] => []
      | [d] => [d]
      | d :: rest => d :: '.' :: rest
    mantissa ++ 'e' :: (if leading < 0 then '-' else '+') :: Text.decimal leading.natAbs

/-- A number in the fewest digits that read back. -/
def write : Number → List Char
  | .integer value =>
    if value < 0 then '-' :: Text.decimal value.natAbs else Text.decimal value.natAbs
  | .float x =>
    let d := x.shortest
    let digits := Text.decimal d.digits
    let leading := if d.digits = 0 then 0 else d.exponent + digits.length - 1
    let magnitude := floatText digits leading
    if x.negative then '-' :: magnitude else magnitude

end Number

end Leasehold.Json
