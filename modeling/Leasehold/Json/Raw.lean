/-!
# JSON as it is written

The syntax tree of a JSON text before it is given a meaning: members in the
order of the text, keys that may repeat, numbers of any size, and text in which
an escape may name half of a surrogate pair. Parts of a document that nobody
asks for need only be well-formed in this sense.
-/

namespace Leasehold.Json

/-- A piece of a JSON text: a character, or the code of a `\u` escape. -/
inductive TextUnit where
  | char (c : Char)
  | code (n : Nat)
  deriving DecidableEq, Repr

/-- The content of a JSON string. -/
abbrev RawText :=
  List TextUnit

/-- A number as written: sign, digits before and after the point, exponent. -/
structure NumberLiteral where
  negative : Bool
  whole : List Char
  fraction : Option (List Char)
  exponent : Option (Bool × List Char)
  deriving DecidableEq, Repr

/-- A JSON text as written. -/
inductive Raw where
  | null
  | boolean (b : Bool)
  | number (literal : NumberLiteral)
  | text (units : RawText)
  | array (items : List Raw)
  | object (members : List (RawText × Raw))
  deriving Repr, Inhabited

/-- The text that the pieces of a string stand for. Two codes that form a
surrogate pair are one character, and half of a pair alone stands for nothing. -/
def RawText.decode : RawText → Option (List Char)
  | [] => some []
  | .char c :: rest => (decode rest).map (c :: ·)
  | .code high :: .code low :: rest =>
    if 0xd800 ≤ high ∧ high ≤ 0xdbff then
      if 0xdc00 ≤ low ∧ low ≤ 0xdfff then
        let n := 0x10000 + (high - 0xd800) * 0x400 + (low - 0xdc00)
        (decode rest).map (Char.ofNat n :: ·)
      else none
    else if 0xdc00 ≤ high ∧ high ≤ 0xdfff then none
    else (decode (.code low :: rest)).map (Char.ofNat high :: ·)
  | .code n :: rest =>
    if 0xd800 ≤ n ∧ n ≤ 0xdfff then none else (decode rest).map (Char.ofNat n :: ·)

/-- The text of a string, unless it holds half of a surrogate pair. -/
def RawText.text? (units : RawText) : Option String :=
  (RawText.decode units).map String.ofList

end Leasehold.Json
