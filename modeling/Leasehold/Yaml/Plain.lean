import Leasehold.Yaml.Gap

/-!
# Plain scalars

A plain scalar has no quotes around it. It ends before a colon and a gap, before
a comment, before a line that is not indented enough, before the mark of a
document, and within brackets before any of them and before a comma.
-/

namespace Leasehold.Yaml

/-- A scalar as far as it was read, the last character first, the gap after it,
and the place behind that. -/
structure Partial where
  text : List Char
  gap : Gap
  mark : Mark
  deriving Repr

namespace Partial

/-- A scalar that begins at a place. -/
def start (mark : Mark) : Partial :=
  ⟨[], .none, mark⟩

/-- The scalar with its gap and a character after that, which is `width`
characters of the stream. -/
def add (scalar : Partial) (c : Char) (width : Nat) : Partial :=
  ⟨c :: (scalar.gap.text.reverse ++ scalar.text), .none, scalar.mark.advance width⟩

/-- The scalar with one more blank in its gap. -/
def addBlank (scalar : Partial) (c : Char) : Partial :=
  { scalar with gap := scalar.gap.addBlank c, mark := scalar.mark.advance 1 }

/-- The scalar with one more line break in its gap, of `width` characters. -/
def addBreak (scalar : Partial) (c : Char) (width : Nat) : Partial :=
  { scalar with gap := scalar.gap.addBreak (readBreak c), mark := scalar.mark.newLine width }

/-- The scalar with its gap and an escaped line break of `width` characters,
after a backslash. -/
def escapeBreak (scalar : Partial) (width : Nat) : Partial :=
  ⟨scalar.gap.text.reverse ++ scalar.text, .escaped [], scalar.mark.newLine (width + 1)⟩

/-- The text of the scalar, its gap left out. -/
def result (scalar : Partial) : String :=
  String.ofList scalar.text.reverse

/-- The text of the scalar with its gap. -/
def whole (scalar : Partial) : String :=
  String.ofList (scalar.gap.text.reverse ++ scalar.text).reverse

end Partial

/-- Brackets and commas, which end a plain scalar within brackets. -/
def isFlowMark (c : Char) : Bool :=
  c == ',' || c == '[' || c == ']' || c == '{' || c == '}'

namespace Plain

/-- Whether a plain scalar within brackets may not go on like this. -/
def isStray : List Char → Bool
  | ':' :: c :: _ => isFlowMark c || c == '?'
  | _ => false

/-- Whether a plain scalar ends before these characters, wherever they stand. -/
def endsBefore (inFlow : Bool) : List Char → Bool
  | [] => true
  | ':' :: rest => atGap rest
  | c :: _ => inFlow && isFlowMark c

/-- Whether a plain scalar ends before these characters, which follow a gap. -/
def endsAfterGap (inFlow : Bool) (indent : Int) (scalar : Partial) (cs : List Char) : Bool :=
  (scalar.gap.isBroken && !inFlow && scalar.mark.column < indent) ||
    (scalar.mark.column == 0 && isDocumentMark cs) || cs.head? == some '#'

/-- Reads on in a plain scalar whose lines are indented by `indent`. -/
def read (inFlow : Bool) (indent : Int) (scalar : Partial) :
    List Char → Option (Partial × List Char)
  | [] => some (scalar, [])
  | '\r' :: '\n' :: rest => read inFlow indent (scalar.addBreak '\n' 2) rest
  | c :: rest =>
    if isBreak c then read inFlow indent (scalar.addBreak c 1) rest
    else if isBlank c then
      if c = '\t' ∧ scalar.gap.isBroken ∧ scalar.mark.column < indent then none
      else read inFlow indent (scalar.addBlank c) rest
    else if scalar.gap ≠ .none ∧ endsAfterGap inFlow indent scalar (c :: rest) then
      some (scalar, c :: rest)
    else if inFlow && isStray (c :: rest) then none
    else if endsBefore inFlow (c :: rest) then some (scalar, c :: rest)
    else read inFlow indent (scalar.add c 1) rest

end Plain

end Leasehold.Yaml
