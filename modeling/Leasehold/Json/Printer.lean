import Leasehold.Json.Value

/-!
# Writing JSON

Values are written on one line without blanks, or over several lines with two
blanks for each level. Text is escaped where JSON demands it and nowhere else.
-/

namespace Leasehold.Json

/-- A digit of a hexadecimal number, in lower case. -/
def hexChar (n : Nat) : Char :=
  if n < 10 then Char.ofNat ('0'.toNat + n) else Char.ofNat ('a'.toNat + (n - 10))

/-- A character inside quotes. -/
def escapeChar (c : Char) : List Char :=
  if c = '"' then ['\\', '"']
  else if c = '\\' then ['\\', '\\']
  else if c = '\x08' then ['\\', 'b']
  else if c = '\x0c' then ['\\', 'f']
  else if c = '\n' then ['\\', 'n']
  else if c = '\r' then ['\\', 'r']
  else if c = '\t' then ['\\', 't']
  else if c.toNat < 0x20 then ['\\', 'u', '0', '0', hexChar (c.toNat / 16), hexChar (c.toNat % 16)]
  else [c]

/-- Characters inside quotes. -/
def escape (cs : List Char) : List Char :=
  cs.flatMap escapeChar

/-- A text in quotes. -/
def quote (s : String) : List Char :=
  '"' :: escape s.toList ++ ['"']

mutual

/-- A value on one line. -/
def writeLine : Json → List Char
  | .null => ['n', 'u', 'l', 'l']
  | .boolean true => ['t', 'r', 'u', 'e']
  | .boolean false => ['f', 'a', 'l', 's', 'e']
  | .number n => n.write
  | .text s => quote s
  | .array items => '[' :: writeItems items ++ [']']
  | .object members => '{' :: writeMembers members ++ ['}']
  termination_by structural value => value

/-- The items of an array with commas between them. -/
def writeItems : List Json → List Char
  | [] => []
  | [item] => writeLine item
  | item :: items => writeLine item ++ ',' :: writeItems items
  termination_by structural values => values

/-- The members of an object with commas between them. -/
def writeMembers : List (String × Json) → List Char
  | [] => []
  | [(key, value)] => quote key ++ ':' :: writeLine value
  | (key, value) :: members => quote key ++ ':' :: writeLine value ++ ',' :: writeMembers members
  termination_by structural pairs => pairs

end

/-- A new line and the blanks that a level begins with. -/
def newLine (level : Nat) : List Char :=
  '\n' :: List.replicate (2 * level) ' '

mutual

/-- A value over several lines, its own parts one level further in. -/
def writePretty (level : Nat) : Json → List Char
  | .null => ['n', 'u', 'l', 'l']
  | .boolean true => ['t', 'r', 'u', 'e']
  | .boolean false => ['f', 'a', 'l', 's', 'e']
  | .number n => n.write
  | .text s => quote s
  | .array [] => ['[', ']']
  | .array (item :: items) =>
    '[' :: newLine (level + 1) ++ writePretty (level + 1) item ++
      writePrettyItems (level + 1) items ++ newLine level ++ [']']
  | .object [] => ['{', '}']
  | .object ((key, value) :: members) =>
    '{' :: newLine (level + 1) ++ quote key ++ ':' :: ' ' :: writePretty (level + 1) value ++
      writePrettyMembers (level + 1) members ++ newLine level ++ ['}']
  termination_by structural value => value

/-- Items after the first one. -/
def writePrettyItems (level : Nat) : List Json → List Char
  | [] => []
  | item :: items =>
    ',' :: newLine level ++ writePretty level item ++ writePrettyItems level items
  termination_by structural values => values

/-- Members after the first one. -/
def writePrettyMembers (level : Nat) : List (String × Json) → List Char
  | [] => []
  | (key, value) :: members =>
    ',' :: newLine level ++ quote key ++ ':' :: ' ' :: writePretty level value ++
      writePrettyMembers level members
  termination_by structural pairs => pairs

end

/-- A value as text on one line. -/
def line (value : Json) : String :=
  String.ofList (writeLine value)

/-- A value as text over several lines. -/
def pretty (value : Json) : String :=
  String.ofList (writePretty 0 value)

end Leasehold.Json
