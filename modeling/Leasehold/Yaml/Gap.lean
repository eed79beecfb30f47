import Leasehold.Yaml.Token

/-!
# Gaps

A gap is the blanks and line breaks between two pieces of a scalar. On one line
it stands for itself. Over several lines, the blanks do not count, a single line
feed is a space, and of several line feeds the first does not count. A line
break that is escaped counts for nothing.
-/

namespace Leasehold.Yaml

/-- Blanks on one line, or line breaks after the first one. -/
inductive Gap where
  | blanks (text : List Char)
  | lines (first : Char) (more : List Char)
  | escaped (more : List Char)
  deriving DecidableEq, Repr

namespace Gap

/-- The gap before any blank. -/
def none : Gap :=
  .blanks []

/-- Whether a gap has a line break. -/
def isBroken : Gap → Bool
  | .blanks _ => false
  | .lines .. => true
  | .escaped _ => true

/-- The gap with one more blank. -/
def addBlank : Gap → Char → Gap
  | .blanks text, c => .blanks (text ++ [c])
  | gap, _ => gap

/-- The gap with one more line break. -/
def addBreak : Gap → Char → Gap
  | .blanks _, c => .lines c []
  | .lines first more, c => .lines first (more ++ [c])
  | .escaped more, c => .escaped (more ++ [c])

/-- What a gap stands for. -/
def text : Gap → List Char
  | .blanks text => text
  | .lines first more =>
    if first = '\n' then (if more.isEmpty then [' '] else more) else first :: more
  | .escaped more => more

end Gap

end Leasehold.Yaml
