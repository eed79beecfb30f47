import Leasehold.Yaml.Plain

/-!
# Quoted scalars

Between single quotes every character stands for itself, and two quotes stand
for one. Between double quotes a backslash begins an escape: a letter for a
character, digits for a code, or a line break that does not count. Lines are
folded in both. The mark of a document must not stand at the beginning of a line.
-/

namespace Leasehold.Yaml.Quoted

/-- Whether a quoted scalar cannot go on here. -/
def isCut (scalar : Partial) (cs : List Char) : Bool :=
  scalar.mark.column == 0 && isDocumentMark cs

/-- Reads on after a single quote, up to the next one. -/
def readSingle (scalar : Partial) : List Char → Option (Partial × List Char)
  | [] => none
  | '\'' :: '\'' :: rest => readSingle (scalar.add '\'' 2) rest
  | '\'' :: rest => some ({ scalar with mark := scalar.mark.advance 1 }, rest)
  | '\r' :: '\n' :: rest => readSingle (scalar.addBreak '\n' 2) rest
  | c :: rest =>
    if isCut scalar (c :: rest) then none
    else if isBreak c then readSingle (scalar.addBreak c 1) rest
    else if isBlank c then readSingle (scalar.addBlank c) rest
    else readSingle (scalar.add c 1) rest

/-- The character that a letter after a backslash stands for. -/
def escaped? : Char → Option Char
  | '0' => some '\x00'
  | 'a' => some '\x07'
  | 'b' => some '\x08'
  | 't' => some '\t'
  | '\t' => some '\t'
  | 'n' => some '\n'
  | 'v' => some '\x0b'
  | 'f' => some '\x0c'
  | 'r' => some '\r'
  | 'e' => some '\x1b'
  | ' ' => some ' '
  | '"' => some '"'
  | '/' => some '/'
  | '\\' => some '\\'
  | 'N' => some '\x85'
  | '_' => some '\xa0'
  | 'L' => some '\u2028'
  | 'P' => some '\u2029'
  | _ => none

/-- The character of a code in hexadecimal digits. -/
def ofDigits? (digits : List Char) : Option Char :=
  (hexNumber? digits).bind character?

/-- Reads on after a double quote, up to the next one. -/
def readDouble (scalar : Partial) : List Char → Option (Partial × List Char)
  | [] => none
  | '"' :: rest => some ({ scalar with mark := scalar.mark.advance 1 }, rest)
  | '\r' :: '\n' :: rest => readDouble (scalar.addBreak '\n' 2) rest
  | '\\' :: '\r' :: '\n' :: rest => readDouble (scalar.escapeBreak 2) rest
  | '\\' :: 'x' :: a :: b :: rest =>
    match ofDigits? [a, b] with
    | some c => readDouble (scalar.add c 4) rest
    | none => none
  | '\\' :: 'u' :: a :: b :: c :: d :: rest =>
    match ofDigits? [a, b, c, d] with
    | some c => readDouble (scalar.add c 6) rest
    | none => none
  | '\\' :: 'U' :: a :: b :: c :: d :: e :: f :: g :: h :: rest =>
    match ofDigits? [a, b, c, d, e, f, g, h] with
    | some c => readDouble (scalar.add c 10) rest
    | none => none
  | '\\' :: c :: rest =>
    if isBreak c then readDouble (scalar.escapeBreak 1) rest
    else
      match escaped? c with
      | some c => readDouble (scalar.add c 2) rest
      | none => none
  | c :: rest =>
    if isCut scalar (c :: rest) then none
    else if isBreak c then readDouble (scalar.addBreak c 1) rest
    else if isBlank c then readDouble (scalar.addBlank c) rest
    else readDouble (scalar.add c 1) rest

end Leasehold.Yaml.Quoted
