import Leasehold.Json.Number
import Leasehold.Yaml.Character

/-!
# What plain scalars mean

A plain scalar may be more than text: nothing, a truth value, an integer with or
without a base in front, or a decimal number. Digits after a leading zero are
text.
-/

namespace Leasehold.Yaml.Meaning

/-- The truth value of a scalar. -/
def boolean? (text : String) : Option Bool :=
  if text = "true" ∨ text = "True" ∨ text = "TRUE" then some true
  else if text = "false" ∨ text = "False" ∨ text = "FALSE" then some false
  else none

/-- Whether a scalar is nothing. -/
def isNull (text : String) : Bool :=
  ["", "~", "null", "Null", "NULL"].contains text

/-- The number that digits of a base up to 16 stand for, if it is below a limit. -/
def digits? (base limit : Nat) (cs : List Char) : Option Nat := do
  if cs.isEmpty then none
  else
    let n ← cs.foldlM (fun n c => do
      let digit ← hexDigit? c
      if digit < base then some (n * base + digit) else none) 0
    if n < limit then some n else none

/-- Whether a scalar is digits after a leading zero, whatever the sign. -/
def isPadded (cs : List Char) : Bool :=
  let digits := match cs with
    | '-' :: rest => rest
    | '+' :: rest => rest
    | cs => cs
  match digits with
  | '0' :: rest => !rest.isEmpty && rest.all Char.isDigit
  | _ => false

/-- The number of digits that may have a base in front of them. -/
def based? (limit : Nat) : List Char → Option Nat
  | '0' :: 'x' :: rest => digits? 16 limit rest
  | '0' :: 'o' :: rest => digits? 8 limit rest
  | '0' :: 'b' :: rest => digits? 2 limit rest
  | cs => if isPadded cs then none else digits? 10 limit cs

/-- The natural number of a scalar, if it is below a limit. -/
def natural? (limit : Nat) (text : String) : Option Nat :=
  match text.toList with
  | '+' :: rest => based? limit rest
  | cs => based? limit cs

/-- Whether a scalar is an integer of 128 bits. -/
def isInteger (text : String) : Bool :=
  match text.toList with
  | '-' :: rest => (based? (Nat.pow 2 127 + 1) rest).isSome
  | _ => (natural? (Nat.pow 2 128) text).isSome

/-- The sign and the digits of an exponent. -/
def exponent? : List Char → Option (Bool × List Char)
  | '-' :: digits => if digits.isEmpty then none else some (true, digits)
  | '+' :: digits => if digits.isEmpty then none else some (false, digits)
  | digits => if digits.isEmpty then none else some (false, digits)

/-- A decimal number without its sign: digits with a point among them, or before
or after them, and an exponent. -/
def decimal? (negative : Bool) (cs : List Char) : Option Json.NumberLiteral := do
  let whole := cs.takeWhile Char.isDigit
  let rest := cs.dropWhile Char.isDigit
  let (fraction, rest) := match rest with
    | '.' :: rest => (rest.takeWhile Char.isDigit, rest.dropWhile Char.isDigit)
    | rest => ([], rest)
  if whole.isEmpty && fraction.isEmpty then none
  else
    let literal : Json.NumberLiteral :=
      { negative := negative
        whole := if whole.isEmpty then ['0'] else whole
        fraction := if fraction.isEmpty then some ['0'] else some fraction
        exponent := none }
    match rest with
    | [] => some literal
    | e :: rest =>
      if e = 'e' ∨ e = 'E' then
        let exponent ← exponent? rest
        if exponent.2.all Char.isDigit then some { literal with exponent := some exponent }
        else none
      else none

/-- The special decimal numbers. -/
def isSpecialDecimal (text : String) : Bool :=
  [".inf", ".Inf", ".INF", "+.inf", "+.Inf", "+.INF", "-.inf", "-.Inf", "-.INF", ".nan", ".NaN",
    ".NAN"].contains text

/-- Whether a scalar is a decimal number in range. -/
def isDecimal (text : String) : Bool :=
  if isPadded text.toList then false
  else if isSpecialDecimal text then true
  else
    let literal := match text.toList with
      | '-' :: rest => decimal? true rest
      | '+' :: rest => decimal? false rest
      | cs => decimal? false cs
    (literal.bind Json.Number.ofLiteral?).isSome

/-- Whether a plain scalar is only text. -/
def isText (text : String) : Bool :=
  !isNull text && (boolean? text).isNone && !isInteger text && !isDecimal text &&
    !isPadded text.toList

end Leasehold.Yaml.Meaning
