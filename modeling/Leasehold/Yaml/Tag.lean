import Leasehold.Yaml.Token

/-!
# Tags and directives

A tag is a handle and a suffix: `!word!suffix`, or `!suffix` for the handle that
is a lone exclamation mark, or a whole tag between angle brackets. Characters of
a suffix may be written as their bytes in hexadecimal. A directive says which
version a document is in, or what a handle stands for.
-/

namespace Leasehold.Yaml

namespace Tag

/-- The characters of a suffix; commas and brackets only in a whole tag. -/
def isUriChar (whole : Bool) (c : Char) : Bool :=
  isWord c || ";/?:@&=+$.!~*'()".toList.contains c || (whole && (c == ',' || c == '[' || c == ']'))

/-- The number of bytes of a character, by its first one. -/
def byteCount? (first : Nat) : Option Nat :=
  if first < 0x80 then some 1
  else if 0xc0 ≤ first ∧ first < 0xe0 then some 2
  else if 0xe0 ≤ first ∧ first < 0xf0 then some 3
  else if 0xf0 ≤ first ∧ first < 0xf8 then some 4
  else none

/-- The byte that is written at the front of a text. -/
def byte? : List Char → Option Nat
  | '%' :: high :: low :: _ => hexNumber? [high, low]
  | _ => none

/-- The low bits of the bytes after the first one of a character. -/
def moreBytes? : Nat → List Char → Option Nat
  | 0, _ => some 0
  | n + 1, cs => do
    let byte ← byte? cs
    let more ← moreBytes? n (cs.drop 3)
    if 0x80 ≤ byte ∧ byte < 0xc0 then return (byte - 0x80) * Nat.pow 64 n + more else none

/-- The character that is written as bytes at the front of a text, and how much
of the text that takes. -/
def escape? (cs : List Char) : Option (Char × Nat) := do
  let first ← byte? cs
  let count ← byteCount? first
  let more ← moreBytes? (count - 1) (cs.drop 3)
  let lead := if count = 1 then first else first % Nat.pow 2 (7 - count)
  return ((character? (lead * Nat.pow 64 (count - 1) + more)).getD '\ufffd', 3 * count)

/-- The characters of a suffix and the rest of a text; `skipped` characters
belong to an escape that was read. -/
def uri? (whole : Bool) (skipped : Nat) : List Char → Option (List Char × List Char)
  | [] => some ([], [])
  | c :: rest =>
    if 0 < skipped then uri? whole (skipped - 1) rest
    else if c = '%' then
      match escape? (c :: rest) with
      | some (found, width) =>
        (uri? whole (width - 1) rest).map fun (cs, rest) => (found :: cs, rest)
      | none => none
    else if isUriChar whole c then (uri? whole 0 rest).map fun (cs, rest) => (c :: cs, rest)
    else some ([], c :: rest)

/-- A suffix that is not empty, and the rest of a text. -/
def nonemptyUri? (whole : Bool) (cs : List Char) : Option (List Char × List Char) := do
  let (found, rest) ← uri? whole 0 cs
  if found.isEmpty then none else some (found, rest)

/-- A word after an exclamation mark, whether another one follows it, and the
rest of a text. -/
def handle? : List Char → Option (List Char × Bool × List Char)
  | '!' :: rest =>
    let word := rest.takeWhile isWord
    match rest.dropWhile isWord with
    | '!' :: rest => some (word, true, rest)
    | rest => some (word, false, rest)
  | _ => none

/-- The handle with a word in it. -/
def handleText (word : List Char) : String :=
  String.ofList ('!' :: word ++ ['!'])

/-- A tag and the rest of a text. -/
def split? : List Char → Option (Token × List Char)
  | '!' :: '<' :: rest => do
    let (found, rest) ← nonemptyUri? true rest
    match rest with
    | '>' :: rest => return (.tag "" (String.ofList found), rest)
    | _ => none
  | cs => do
    let (word, closed, rest) ← handle? cs
    if closed then
      let (found, rest) ← nonemptyUri? false rest
      return (.tag (handleText word) (String.ofList found), rest)
    else
      let (found, rest) ← uri? false 0 rest
      if (word ++ found).isEmpty then return (.tag "" "!", rest)
      else return (.tag "!" (String.ofList (word ++ found)), rest)

/-- Reads a tag, which a gap follows, or a comma within brackets. -/
def scan? (inFlow : Bool) (cursor : Cursor) : Option (Token × Cursor) := do
  let (token, rest) ← split? cursor.rest
  if atGap rest || (inFlow && rest.head? == some ',') then
    return (token, ⟨rest, cursor.mark.advance (cursor.rest.length - rest.length)⟩)
  else none

end Tag

namespace Directive

/-- Up to nine digits and the rest of a text. -/
def number? (cs : List Char) : Option (Nat × List Char) :=
  let digits := cs.takeWhile Char.isDigit
  if digits.isEmpty ∨ 9 < digits.length then none
  else some (Nat.ofDigitChars 10 digits 0, cs.dropWhile Char.isDigit)

/-- The version of a document and the rest of a text. -/
def version? (cs : List Char) : Option (Token × List Char) := do
  let (major, rest) ← number? cs
  match rest with
  | '.' :: rest =>
    let (minor, rest) ← number? rest
    return (.version major minor, rest)
  | _ => none

/-- What a handle stands for, and the rest of a text. -/
def tagPrefix? (cs : List Char) : Option (Token × List Char) := do
  let (word, closed, rest) ← Tag.handle? cs
  let handle ←
    if closed then some (Tag.handleText word) else if word.isEmpty then some "!" else none
  if rest.head?.any isBlank then
    let (leading, rest) ← Tag.nonemptyUri? true (rest.dropWhile isBlank)
    return (.tagPrefix handle (String.ofList leading), rest)
  else none

/-- Reads a directive with its line, from behind the percent sign on. -/
def scan? (cursor : Cursor) : Option (Token × Cursor) := do
  let name := String.ofList (cursor.rest.takeWhile isWord)
  let rest := cursor.rest.dropWhile isWord
  if atGap rest then
    let (token, rest) ← match name with
      | "YAML" => version? (rest.dropWhile isBlank)
      | "TAG" => tagPrefix? (rest.dropWhile isBlank)
      | _ => none
    if atGap rest then
      let read : Cursor := ⟨rest, cursor.mark.advance (cursor.rest.length - rest.length)⟩
      let read ← read.endLine?
      return (token, read.skipBreak)
    else none
  else none

end Directive

end Leasehold.Yaml
