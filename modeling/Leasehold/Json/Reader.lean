import Leasehold.Json.Token

/-!
# Building a JSON tree from its tokens

The containers that are open form a stack, and what may come next is known from
the last token. Each token is used once, so the depth of a text is bounded by
nothing but its length.
-/

namespace Leasehold.Json

/-- A container that is open, its parts latest first. -/
inductive Frame where
  | array (items : List Raw)
  | object (members : List (RawText × Raw))
  | member (members : List (RawText × Raw)) (key : RawText)

/-- What the next token may be. -/
inductive Awaiting where
  | value
  | firstItem
  | firstKey
  | key
  | colon
  | separator
  deriving DecidableEq, Repr

/-- A document that is being built, or one that is complete. -/
inductive Building where
  | unfinished (awaiting : Awaiting) (frames : List Frame)
  | complete (value : Raw)

namespace Building

/-- Before the first token. -/
def start : Building :=
  .unfinished .value []

/-- Puts a value where one is awaited. -/
def put (value : Raw) : List Frame → Option Building
  | [] => some (.complete value)
  | .array items :: frames => some (.unfinished .separator (.array (value :: items) :: frames))
  | .member members key :: frames =>
    some (.unfinished .separator (.object ((key, value) :: members) :: frames))
  | .object _ :: _ => none

/-- A token that begins a value. -/
def beginValue (frames : List Frame) : Token → Option Building
  | .null => put .null frames
  | .boolean b => put (.boolean b) frames
  | .number literal => put (.number literal) frames
  | .text units => put (.text units) frames
  | .openBracket => some (.unfinished .firstItem (.array [] :: frames))
  | .openBrace => some (.unfinished .firstKey (.object [] :: frames))
  | _ => none

/-- A key of the innermost object. -/
def beginMember (frames : List Frame) : Token → Option Building
  | .text key =>
    match frames with
    | .object members :: frames => some (.unfinished .colon (.member members key :: frames))
    | _ => none
  | _ => none

/-- The end of the innermost container. -/
def close : Token → List Frame → Option Building
  | .closeBracket, .array items :: frames => put (.array items.reverse) frames
  | .closeBrace, .object members :: frames => put (.object members.reverse) frames
  | _, _ => none

/-- A comma, after which another part has to come. -/
def another : List Frame → Option Building
  | .array items :: frames => some (.unfinished .value (.array items :: frames))
  | .object members :: frames => some (.unfinished .key (.object members :: frames))
  | _ => none

/-- Uses one more token. -/
def next : Building → Token → Option Building
  | .complete _, _ => none
  | .unfinished .value frames, token => beginValue frames token
  | .unfinished .firstItem frames, .closeBracket => close .closeBracket frames
  | .unfinished .firstItem frames, token => beginValue frames token
  | .unfinished .firstKey frames, .closeBrace => close .closeBrace frames
  | .unfinished .firstKey frames, token => beginMember frames token
  | .unfinished .key frames, token => beginMember frames token
  | .unfinished .colon frames, .colon => some (.unfinished .value frames)
  | .unfinished .colon _, _ => none
  | .unfinished .separator frames, .comma => another frames
  | .unfinished .separator frames, token => close token frames

/-- Uses tokens from first to last. -/
def useAll? : Building → List Token → Option Building
  | building, [] => some building
  | building, token :: tokens =>
    (building.next token).bind fun building => useAll? building tokens

/-- The document, if it is complete. -/
def finish? : Building → Option Raw
  | .complete value => some value
  | .unfinished _ _ => none

end Building

/-- The tree of a text that is one JSON value. -/
def Raw.read? (cs : List Char) : Option Raw := do
  (← Building.start.useAll? (← tokens? cs)).finish?

end Leasehold.Json
