import Leasehold.Yaml.Meaning
import Leasehold.Yaml.Token

/-!
# Writing scalars of YAML

A text is written as a scalar from which it can be read back: over several lines
after a bar if it has line feeds, plain if nothing in it could be taken for
something else, in single quotes if it would not be text or not be plain, and in
double quotes where only escapes will do.
-/

namespace Leasehold.Yaml

/-- Whether a character can stand for itself. -/
def isPrintable (c : Char) : Bool :=
  let n := c.toNat
  n == 0x0a || (0x20 ≤ n && n ≤ 0x7e) || (0xa0 ≤ n && n ≤ 0xfffd && n != 0xfeff) || 0x10000 ≤ n

namespace Layout

/-- Whether a first character of one kind stands directly before one of another. -/
def hasPair (first second : Char → Bool) : List Char → Bool
  | c :: d :: rest => (first c && second d) || hasPair first second (d :: rest)
  | _ => false

/-- Whether a colon stands before a gap. -/
def hasKeyMark : List Char → Bool
  | [] => false
  | c :: rest => (c == ':' && atGap rest) || hasKeyMark rest

/-- Whether the first character of a plain scalar would be taken for a mark. -/
def beginsWithMark : List Char → Bool
  | [] => false
  | c :: rest =>
    "#,[]\x7b\x7d&*!|>'\"%@`".toList.contains c || ((c == '?' || c == '-') && atGap rest)

/-- Whether a text begins like the mark of a document. -/
def beginsLikeDocumentMark : List Char → Bool
  | '-' :: '-' :: '-' :: _ => true
  | '.' :: '.' :: '.' :: _ => true
  | _ => false

/-- Whether something in a text would be taken for a mark of a block. -/
def hasBlockMark (cs : List Char) : Bool :=
  beginsLikeDocumentMark cs || beginsWithMark cs || hasKeyMark cs ||
    hasPair (fun c => isBlank c || isBreak c) (· == '#') cs

/-- Whether a text needs escapes: characters that do not stand for themselves, or
spaces at the end of a line. -/
def needsEscapes (cs : List Char) : Bool :=
  cs.any (!isPrintable ·) || hasPair (· == ' ') isBreak cs

/-- Whether a text can be written plain. -/
def canBePlain (cs : List Char) : Bool :=
  !needsEscapes cs && !hasBlockMark cs && !cs.any isBreak && cs.head? != some ' ' &&
    cs.getLast? != some ' '

/-- Whether a text can be written in single quotes. -/
def canBeSingleQuoted (cs : List Char) : Bool :=
  !needsEscapes cs && !hasPair isBreak (· == ' ') cs

/-- Whether a text can be written over several lines. -/
def canBeLiteral (cs : List Char) : Bool :=
  !needsEscapes cs && cs.getLast? != some ' '

/-- How a text is written. -/
def style (text : String) : ScalarStyle :=
  let cs := text.toList
  if cs.contains '\n' then (if canBeLiteral cs then .literal else .doubleQuoted)
  else if Meaning.isText text && canBePlain cs then .plain
  else if canBeSingleQuoted cs then .singleQuoted
  else .doubleQuoted

end Layout

namespace Printer

/-- The indentation of the lines of a scalar. -/
def indentation : List Char :=
  [' ', ' ']

/-- Characters between single quotes; `atStart` holds at the beginning of a line. -/
def single (atStart : Bool) : List Char → List Char
  | [] => if atStart then indentation else []
  | c :: rest =>
    if isBreak c then c :: single true rest
    else
      (if atStart then indentation else []) ++ (if c = '\'' then ['\'', '\''] else [c]) ++
        single false rest

/-- Lines after a bar; `atStart` holds at the beginning of a line. -/
def literal (atStart : Bool) : List Char → List Char
  | [] => []
  | c :: rest =>
    if isBreak c then c :: literal true rest
    else (if atStart then indentation else []) ++ c :: literal false rest

/-- A number in upper case hexadecimal digits. -/
def hexadecimal (width n : Nat) : List Char :=
  List.leftpad width '0' ((Nat.toDigits 16 n).map Char.toUpper)

/-- The letter that stands for a character after a backslash. -/
def escapeLetter? (c : Char) : Option Char :=
  match c.toNat with
  | 0x00 => some '0'
  | 0x07 => some 'a'
  | 0x08 => some 'b'
  | 0x09 => some 't'
  | 0x0a => some 'n'
  | 0x0b => some 'v'
  | 0x0c => some 'f'
  | 0x0d => some 'r'
  | 0x1b => some 'e'
  | 0x22 => some '"'
  | 0x5c => some '\\'
  | 0x85 => some 'N'
  | 0xa0 => some '_'
  | 0x2028 => some 'L'
  | 0x2029 => some 'P'
  | _ => none

/-- A character between double quotes. -/
def double (c : Char) : List Char :=
  if isPrintable c && !isBreak c && c != '"' && c != '\\' then [c]
  else
    match escapeLetter? c with
    | some letter => ['\\', letter]
    | none =>
      let n := c.toNat
      if n ≤ 0xff then '\\' :: 'x' :: hexadecimal 2 n
      else if n ≤ 0xffff then '\\' :: 'u' :: hexadecimal 4 n
      else '\\' :: 'U' :: hexadecimal 8 n

/-- The header of lines after a bar: their indentation if they begin with a gap,
and what becomes of the line breaks at the end. -/
def literalHeader (cs : List Char) : List Char :=
  let indent := if cs.head?.any fun c => c == ' ' || isBreak c then ['2'] else []
  let chomping := match cs.reverse with
    | [] => ['-']
    | last :: before =>
      if !isBreak last then ['-'] else if before.head?.all isBreak then ['+'] else []
  '|' :: indent ++ chomping

/-- A text as the value of a member, with the line break after it. -/
def line (text : String) : List Char :=
  let cs := text.toList
  match Layout.style text with
  | .literal =>
    literalHeader cs ++ '\n' :: literal true cs ++ (if cs.getLast?.any isBreak then [] else ['\n'])
  | .singleQuoted => '\'' :: single false cs ++ ['\'', '\n']
  | .doubleQuoted => '"' :: cs.flatMap double ++ ['"', '\n']
  | _ => cs ++ ['\n']

end Printer

end Leasehold.Yaml
