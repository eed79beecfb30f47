import Leasehold.Yaml.Character

/-!
# Tokens of YAML

The tokens that a stream is cut into. Indentation shows in them as the starts
and ends of block collections, and a key in front of a colon has a token of its
own. A mark is a place in the stream.
-/

namespace Leasehold.Yaml

/-- How a scalar is written. -/
inductive ScalarStyle where
  | plain
  | singleQuoted
  | doubleQuoted
  | literal
  | folded
  deriving DecidableEq, Repr

/-- A piece of a stream. -/
inductive Token where
  | version (major minor : Nat)
  | tagPrefix (handle leading : String)
  | documentStart
  | documentEnd
  | blockSequenceStart
  | blockMappingStart
  | blockEnd
  | flowSequenceStart
  | flowSequenceEnd
  | flowMappingStart
  | flowMappingEnd
  | blockEntry
  | flowEntry
  | key
  | value
  | alias (name : String)
  | anchor (name : String)
  | tag (handle suffix : String)
  | scalar (style : ScalarStyle) (text : String)
  deriving DecidableEq, Repr

/-- A place in a stream: characters before it, lines before it, and characters
before it on its line. -/
structure Mark where
  index : Nat
  line : Nat
  column : Nat
  deriving DecidableEq, Repr, Inhabited

namespace Mark

/-- The beginning of a stream. -/
def start : Mark :=
  ⟨0, 0, 0⟩

/-- The place so many characters further on the same line. -/
def advance (mark : Mark) (n : Nat) : Mark :=
  ⟨mark.index + n, mark.line, mark.column + n⟩

/-- The beginning of the line after a line break of so many characters. -/
def newLine (mark : Mark) (n : Nat) : Mark :=
  ⟨mark.index + n, mark.line + 1, 0⟩

end Mark

/-- What is left of a stream, and its place. -/
structure Cursor where
  rest : List Char
  mark : Mark
  deriving Repr

namespace Cursor

/-- The cursor after the characters at the front for which `p` holds. -/
def skipWhile (cursor : Cursor) (p : Char → Bool) : Cursor :=
  let skipped := cursor.rest.takeWhile p
  ⟨cursor.rest.dropWhile p, cursor.mark.advance skipped.length⟩

/-- The cursor so many characters further on the same line. -/
def skip (cursor : Cursor) (n : Nat) : Cursor :=
  ⟨cursor.rest.drop n, cursor.mark.advance n⟩

/-- The cursor after a line break, if there is one here. -/
def skipBreak (cursor : Cursor) : Cursor :=
  match cursor.rest with
  | '\r' :: '\n' :: rest => ⟨rest, cursor.mark.newLine 2⟩
  | c :: rest => if isBreak c then ⟨rest, cursor.mark.newLine 1⟩ else cursor
  | [] => cursor

/-- The cursor after a comment, if one begins here. -/
def skipComment (cursor : Cursor) : Cursor :=
  if cursor.rest.head? = some '#' then cursor.skipWhile fun c => !isBreak c else cursor

/-- The cursor at the end of a line on which only blanks and a comment may be
left. -/
def endLine? (cursor : Cursor) : Option Cursor :=
  let cursor := (cursor.skipWhile isBlank).skipComment
  if cursor.rest.head?.all isBreak then some cursor else none

end Cursor

end Leasehold.Yaml
