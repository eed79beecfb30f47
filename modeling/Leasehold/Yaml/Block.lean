import Leasehold.Yaml.Token
import Leasehold.Yaml.Gap

/-!
# Block scalars

A block scalar is the indented lines after a bar or a bracket. The header may
say by how much they are indented and what becomes of the line breaks at the
end: they are kept, they are dropped, or one of them is kept. After a bar the
lines stand as they are; after a bracket they are folded, except for those that
begin with a blank.
-/

namespace Leasehold.Yaml.Block

/-- What becomes of the line breaks at the end. -/
inductive Chomping where
  | clip
  | strip
  | keep
  deriving DecidableEq, Repr

/-- What the header of a block scalar says. -/
structure Header where
  chomping : Chomping
  indent : Option Nat
  deriving DecidableEq, Repr

/-- The way of dropping line breaks that a sign stands for. -/
def chomping? : Char → Option Chomping
  | '+' => some .keep
  | '-' => some .strip
  | _ => none

/-- The number of an indentation that is given in a header. -/
def indent? (c : Char) : Option Nat :=
  if c.isDigit then some (c.toNat - '0'.toNat) else none

/-- Reads a header: a sign and a digit in any order, and how many characters
that is. An indentation of zero is an error. -/
def header? (cs : List Char) : Option (Header × Nat) :=
  let found : Header × Nat :=
    match cs.head?.bind chomping?, cs.head?.bind indent? with
    | some chomping, _ =>
      match cs.tail.head?.bind indent? with
      | some n => (⟨chomping, some n⟩, 2)
      | none => (⟨chomping, none⟩, 1)
    | none, some n =>
      match cs.tail.head?.bind chomping? with
      | some chomping => (⟨chomping, some n⟩, 2)
      | none => (⟨.clip, some n⟩, 1)
    | none, none => (⟨.clip, none⟩, 0)
  if found.1.indent = some 0 then none else some found

/-- A block scalar as far as it was read, the last character first. -/
structure Lines where
  /-- Whether lines are folded. -/
  folds : Bool
  /-- The column that lines begin in, once it is known. -/
  indent : Option Nat
  /-- The column that lines begin in at least. -/
  leastIndent : Nat
  /-- The furthest column that spaces in front of a line went to. -/
  reached : Nat
  text : List Char
  /-- The line break after the text. -/
  ending : List Char
  /-- The line breaks of the blank lines after that. -/
  blankLines : List Char
  /-- Whether the last line began with a blank. -/
  wasBlank : Bool
  mark : Mark
  deriving Repr

namespace Lines

/-- The column of the text of a line. -/
def column (lines : Lines) : Nat :=
  lines.indent.getD (Nat.max lines.reached lines.leastIndent)

/-- The scalar after a space in front of a line. -/
def space (lines : Lines) : Lines :=
  let mark := lines.mark.advance 1
  { lines with mark := mark, reached := Nat.max lines.reached mark.column }

/-- The scalar after a blank line, or after the end of a line with text. -/
def blankLine (lines : Lines) (c : Char) (width : Nat) : Lines :=
  { lines with blankLines := lines.blankLines ++ [readBreak c], mark := lines.mark.newLine width }

/-- The scalar after a line of text. -/
def endLine (lines : Lines) (c : Char) (width : Nat) : Lines :=
  { lines with ending := [readBreak c], blankLines := [], mark := lines.mark.newLine width }

/-- What the line breaks before a line of text stand for. -/
def between (lines : Lines) (blankFirst : Bool) : List Char :=
  if lines.folds && lines.ending == ['\n'] && !lines.wasBlank && !blankFirst then
    if lines.blankLines.isEmpty then [' '] else lines.blankLines
  else lines.ending ++ lines.blankLines

/-- The scalar after the first character of a line of text. -/
def beginLine (lines : Lines) (c : Char) : Lines :=
  { lines with
    indent := some lines.column
    text := c :: ((lines.between (isBlank c)).reverse ++ lines.text)
    ending := []
    blankLines := []
    wasBlank := isBlank c
    mark := lines.mark.advance 1 }

/-- The scalar after one more character of a line of text. -/
def add (lines : Lines) (c : Char) : Lines :=
  { lines with text := c :: lines.text, mark := lines.mark.advance 1 }

/-- The text of the scalar. -/
def result (lines : Lines) (chomping : Chomping) : String :=
  let ending := match chomping with
    | .strip => []
    | .clip => lines.ending
    | .keep => lines.ending ++ lines.blankLines
  String.ofList (lines.text.reverse ++ ending)

end Lines

/-- Reads on in a block scalar, in front of the text of a line or, if `inText`
holds, in it. -/
def read (inText : Bool) (lines : Lines) : List Char → Option (Lines × List Char)
  | [] => some (lines, [])
  | '\r' :: '\n' :: rest =>
    if inText then read false (lines.endLine '\n' 2) rest
    else read false (lines.blankLine '\n' 2) rest
  | c :: rest =>
    if inText then
      if isBreak c then read false (lines.endLine c 1) rest else read true (lines.add c) rest
    else if c = ' ' ∧ lines.indent.all (lines.mark.column < ·) then read false lines.space rest
    else if c = '\t' ∧ lines.indent.all (lines.mark.column < ·) then none
    else if isBreak c then read false (lines.blankLine c 1) rest
    else if lines.mark.column = lines.column then read true (lines.beginLine c) rest
    else some (lines, c :: rest)

/-- Reads a block scalar from its header on, in a collection indented by
`indent`. -/
def scan? (folds : Bool) (indent : Int) (cursor : Cursor) : Option (String × Cursor) := do
  let (header, width) ← header? cursor.rest
  let cursor ← (cursor.skip width).endLine?
  let cursor := cursor.skipBreak
  let lines : Lines :=
    { folds := folds
      indent := header.indent.map fun n => indent.toNat + n
      leastIndent := Nat.max (indent + 1).toNat 1
      reached := 0
      text := []
      ending := []
      blankLines := []
      wasBlank := false
      mark := cursor.mark }
  let (lines, rest) ← read false lines cursor.rest
  return (lines.result header.chomping, ⟨rest, lines.mark⟩)

end Leasehold.Yaml.Block
