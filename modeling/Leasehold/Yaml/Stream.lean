import Leasehold.Yaml.Block
import Leasehold.Yaml.Quoted
import Leasehold.Yaml.Tag

/-!
# Streams as tokens

A stream is cut into tokens from the front. What may turn out to be a key is
remembered until a colon follows it on the same line, and not too far away; the
tokens that say so are then put in front of it. Lines that are indented further
than the collection around them begin a collection, and lines that are indented
less end it, unless brackets are open.
-/

namespace Leasehold.Yaml

/-- A token that may turn out to be a key. -/
structure Candidate where
  /-- Whether it has to be a key, for it is where the keys of a mapping are. -/
  required : Bool
  /-- The number of tokens before it. -/
  position : Nat
  mark : Mark
  deriving Repr

/-- A stream that is being cut into tokens. -/
structure Stream where
  cursor : Cursor
  tokens : Array Token
  /-- The column of the block collection around the cursor, or -1. -/
  indent : Int
  /-- The columns of the collections around that one. -/
  outer : List Int
  /-- Whether a key may begin at the cursor. -/
  keyAllowed : Bool
  /-- The possible key outside of all open brackets, and one for each of them, the
  innermost first. -/
  candidate : Option Candidate
  enclosing : List (Option Candidate)

namespace Stream

/-- A stream of which nothing has been read. -/
def ofText (cs : List Char) : Stream :=
  ⟨⟨cs, .start⟩, #[], -1, [], true, none, []⟩

/-- Whether brackets are open. -/
def inFlow (stream : Stream) : Bool :=
  !stream.enclosing.isEmpty

/-- The column of the cursor. -/
def column (stream : Stream) : Nat :=
  stream.cursor.mark.column

/-- The stream with one more token, and the cursor moved on. -/
def emit (stream : Stream) (token : Token) (cursor : Cursor) : Stream :=
  { stream with tokens := stream.tokens.push token, cursor := cursor }

/-- The stream with one more token, which is so many characters. -/
def emitMark (stream : Stream) (token : Token) (width : Nat) : Stream :=
  stream.emit token (stream.cursor.skip width)

/-- The stream with a key allowed at the cursor or not. -/
def allowKey (stream : Stream) (allowed : Bool) : Stream :=
  { stream with keyAllowed := allowed }

/-! ## Indentation -/

/-- The stream with a block collection begun at a column, if that is further in
than the collection around it. -/
def indentTo (stream : Stream) (column position : Nat) (token : Token) : Stream :=
  if stream.inFlow then stream
  else if stream.indent < column then
    { stream with
      outer := stream.indent :: stream.outer
      indent := column
      tokens := stream.tokens.insertIdxIfInBounds position token }
  else stream

/-- The stream with the block collections ended that are further in than a column. -/
def unindentTo (stream : Stream) (column : Int) : Stream :=
  if stream.inFlow then stream
  else
    let columns := (stream.indent :: stream.outer).dropWhile (column < ·)
    let ended := stream.outer.length + 1 - columns.length
    { stream with
      tokens := stream.tokens ++ (List.replicate ended Token.blockEnd).toArray
      indent := columns.headD (-1)
      outer := columns.tail }

/-! ## Keys -/

/-- The stream without a possible key, unless there has to be one. -/
def forgetKey? (stream : Stream) : Option Stream :=
  if stream.candidate.any Candidate.required then none
  else some { stream with candidate := none }

/-- The stream with the token at the cursor for a possible key, if a key is
allowed there. -/
def noteKey? (stream : Stream) : Option Stream :=
  if stream.keyAllowed then do
    let stream ← stream.forgetKey?
    let required := !stream.inFlow && stream.indent == stream.column
    return { stream with
      candidate := some ⟨required, stream.tokens.size, stream.cursor.mark⟩ }
  else some stream

/-- How many characters a key and the blanks after it may have. -/
def keyLimit : Nat :=
  1024

/-- Whether a possible key is on an earlier line or too far away. -/
def isStale (mark : Mark) (candidate : Candidate) : Bool :=
  candidate.mark.line < mark.line || candidate.mark.index + keyLimit < mark.index

/-- A possible key that can still be one, or nothing; no stream at all if there
had to be a key. -/
def refresh? (mark : Mark) : Option Candidate → Option (Option Candidate)
  | none => some none
  | some candidate =>
    if isStale mark candidate then (if candidate.required then none else some none)
    else some (some candidate)

/-- The stream without the possible keys that are stale. -/
def dropStale? (stream : Stream) : Option Stream := do
  let mark := stream.cursor.mark
  return { stream with
    candidate := ← refresh? mark stream.candidate
    enclosing := ← stream.enclosing.mapM (refresh? mark) }

/-! ## Kinds of tokens -/

/-- A bracket that opens. -/
def openFlow? (stream : Stream) (token : Token) : Option Stream := do
  let stream ← stream.noteKey?
  let opened := { stream with candidate := none, enclosing := stream.candidate :: stream.enclosing }
  return (opened.emitMark token 1).allowKey true

/-- A bracket that closes. -/
def closeFlow? (stream : Stream) (token : Token) : Option Stream := do
  let stream ← stream.forgetKey?
  let closed := match stream.enclosing with
    | candidate :: enclosing => { stream with candidate := candidate, enclosing := enclosing }
    | [] => stream
  return (closed.emitMark token 1).allowKey false

/-- A comma within brackets. -/
def flowEntry? (stream : Stream) : Option Stream := do
  let stream ← stream.forgetKey?
  return (stream.emitMark .flowEntry 1).allowKey true

/-- A hyphen before an entry. -/
def blockEntry? (stream : Stream) : Option Stream := do
  if !stream.inFlow && !stream.keyAllowed then none
  else
    let stream := stream.indentTo stream.column stream.tokens.size .blockSequenceStart
    let stream ← stream.forgetKey?
    return (stream.emitMark .blockEntry 1).allowKey true

/-- A question mark before a key. -/
def key? (stream : Stream) : Option Stream := do
  if !stream.inFlow && !stream.keyAllowed then none
  else
    let stream := stream.indentTo stream.column stream.tokens.size .blockMappingStart
    let stream ← stream.forgetKey?
    return (stream.emitMark .key 1).allowKey !stream.inFlow

/-- A colon before a value, and after a key unless that has a question mark. -/
def value? (stream : Stream) : Option Stream :=
  match stream.candidate with
  | some candidate =>
    let position := candidate.position
    let keyed := { stream with
      tokens := stream.tokens.insertIdxIfInBounds position .key, candidate := none }
    let begun := keyed.indentTo candidate.mark.column position .blockMappingStart
    some ((begun.emitMark .value 1).allowKey false)
  | none =>
    if !stream.inFlow && !stream.keyAllowed then none
    else
      let begun := stream.indentTo stream.column stream.tokens.size .blockMappingStart
      some ((begun.emitMark .value 1).allowKey !stream.inFlow)

/-- A name after an asterisk or an ampersand. -/
def name? (stream : Stream) (token : String → Token) : Option Stream := do
  let stream ← stream.noteKey?
  let behind := stream.cursor.skip 1
  let name := behind.rest.takeWhile isWord
  let after := behind.skipWhile isWord
  let ended := atGap after.rest || after.rest.head?.any ("?:,]\x7d%@`".toList.contains ·)
  if name.isEmpty || !ended then none
  else return (stream.emit (token (String.ofList name)) after).allowKey false

/-- A tag. -/
def tag? (stream : Stream) : Option Stream := do
  let stream ← stream.noteKey?
  let (token, cursor) ← Tag.scan? stream.inFlow stream.cursor
  return (stream.emit token cursor).allowKey false

/-- A block scalar. -/
def blockScalar? (stream : Stream) (style : ScalarStyle) : Option Stream := do
  let stream ← stream.forgetKey?
  let (text, cursor) ← Block.scan? (style == .folded) stream.indent (stream.cursor.skip 1)
  return (stream.emit (.scalar style text) cursor).allowKey true

/-- A quoted scalar. -/
def quotedScalar? (stream : Stream) (style : ScalarStyle)
    (read : Partial → List Char → Option (Partial × List Char)) : Option Stream := do
  let stream ← stream.noteKey?
  let inside := stream.cursor.skip 1
  let (scalar, rest) ← read (.start inside.mark) inside.rest
  return (stream.emit (.scalar style scalar.whole) ⟨rest, scalar.mark⟩).allowKey false

/-- A plain scalar; a key may follow it on a new line. -/
def plainScalar? (stream : Stream) : Option Stream := do
  let stream ← stream.noteKey?
  let start := Partial.start stream.cursor.mark
  let (scalar, rest) ← Plain.read stream.inFlow (stream.indent + 1) start stream.cursor.rest
  return (stream.emit (.scalar .plain scalar.result) ⟨rest, scalar.mark⟩).allowKey
    scalar.gap.isBroken

/-- The mark before or after a document. -/
def documentMark? (stream : Stream) (token : Token) : Option Stream := do
  let stream ← (stream.unindentTo (-1)).forgetKey?
  return (stream.emitMark token 3).allowKey false

/-- A directive. -/
def directive? (stream : Stream) : Option Stream := do
  let stream ← (stream.unindentTo (-1)).forgetKey?
  let (token, cursor) ← Directive.scan? (stream.cursor.skip 1)
  return (stream.emit token cursor).allowKey false

/-! ## Cutting -/

/-- Skips blanks, comments and line breaks, at most so many lines. Tabs count as
blanks where no key is allowed. -/
def skipLines (stream : Stream) : Nat → Stream
  | 0 => stream
  | n + 1 =>
    let cursor := stream.cursor
    let cursor := if cursor.mark.column = 0 ∧ cursor.rest.head? = some byteOrderMark then
      cursor.skip 1 else cursor
    let tabs := stream.inFlow || !stream.keyAllowed
    let cursor := (cursor.skipWhile fun c => c == ' ' || (tabs && c == '\t')).skipComment
    if cursor.rest.head?.any isBreak then
      skipLines { stream with
        cursor := cursor.skipBreak, keyAllowed := stream.keyAllowed || !stream.inFlow } n
    else { stream with cursor := cursor }

/-- Whether a plain scalar may begin here. -/
def beginsPlain (inFlow : Bool) (c : Char) (rest : List Char) : Bool :=
  !(isBlank c || "-?:,[]\x7b\x7d#&*!|>'\"%@`".toList.contains c) ||
    (c == '-' && !rest.head?.any isBlank) ||
    (!inFlow && (c == '?' || c == ':') && !atGap rest)

/-- Reads the token that begins at the cursor. -/
def token? (stream : Stream) (c : Char) (rest : List Char) : Option Stream :=
  if stream.column == 0 && c == '%' then stream.directive?
  else if stream.column == 0 && isDocumentMark (c :: rest) then
    stream.documentMark? (if c = '-' then .documentStart else .documentEnd)
  else if c = '[' then stream.openFlow? .flowSequenceStart
  else if c = '{' then stream.openFlow? .flowMappingStart
  else if c = ']' then stream.closeFlow? .flowSequenceEnd
  else if c = '}' then stream.closeFlow? .flowMappingEnd
  else if c = ',' then stream.flowEntry?
  else if c == '-' && atGap rest then stream.blockEntry?
  else if c == '?' && (stream.inFlow || atGap rest) then stream.key?
  else if c == ':' && (stream.inFlow || atGap rest) then stream.value?
  else if c = '*' then stream.name? .alias
  else if c = '&' then stream.name? .anchor
  else if c = '!' then stream.tag?
  else if c == '|' && !stream.inFlow then stream.blockScalar? .literal
  else if c == '>' && !stream.inFlow then stream.blockScalar? .folded
  else if c = '\'' then stream.quotedScalar? .singleQuoted Quoted.readSingle
  else if c = '"' then stream.quotedScalar? .doubleQuoted Quoted.readDouble
  else if beginsPlain stream.inFlow c rest then stream.plainScalar?
  else none

/-- Ends all collections and gives the tokens. -/
def finish? (stream : Stream) : Option (List Token) := do
  let stream ← (stream.unindentTo (-1)).forgetKey?
  return stream.tokens.toList

/-- Reads the tokens of a stream, at most so many. -/
def run? (stream : Stream) : Nat → Option (List Token)
  | 0 => none
  | n + 1 => do
    let stream ← (stream.skipLines (stream.cursor.rest.length + 1)).dropStale?
    match stream.cursor.rest with
    | [] => stream.finish?
    | c :: rest =>
      let stream ← (stream.unindentTo stream.column).token? c rest
      stream.run? n

end Stream

/-- The tokens of a text. -/
def tokens? (text : String) : Option (List Token) :=
  let cs := match text.toList with
    | c :: cs => if c = byteOrderMark then cs else c :: cs
    | [] => []
  if cs.all isAllowed then (Stream.ofText cs).run? (cs.length + 1) else none

end Leasehold.Yaml
