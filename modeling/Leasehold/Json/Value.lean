import Leasehold.Json.Number
import Leasehold.Json.Reader
import Leasehold.TextMap

/-!
# JSON values

A value is what a text means: keys and strings are proper text, numbers are in
range, an object has every key once and in order, and containers nest no deeper
than a limit.
-/

namespace Leasehold

/-- A JSON value. The members of an object that was read are in key order. -/
inductive Json where
  | null
  | boolean (b : Bool)
  | number (n : Json.Number)
  | text (s : String)
  | array (items : List Json)
  | object (members : List (String × Json))
  deriving Repr, Inhabited

namespace Json

/-- How deep the containers of a document may nest. -/
def depthLimit : Nat :=
  127

/-- A whole number. -/
def ofNat (n : Nat) : Json :=
  .number (.integer n)

/-- The members of a map, in key order. -/
def ofMap (map : TextMap Json) : Json :=
  .object map.toList

mutual

/-- The meaning of a tree whose containers nest at most `depth` deep. -/
def ofRaw? (depth : Nat) : Raw → Option Json
  | .null => some .null
  | .boolean b => some (.boolean b)
  | .number literal => (Number.ofLiteral? literal).map .number
  | .text units => units.text?.map .text
  | .array items =>
    if depth = 0 then none else (itemsOfRaw? (depth - 1) items).map .array
  | .object members =>
    if depth = 0 then none
    else (membersOfRaw? (depth - 1) members).map fun found => ofMap (TextMap.ofList found)
  termination_by structural raw => raw

/-- The meanings of the items of an array. -/
def itemsOfRaw? (depth : Nat) : List Raw → Option (List Json)
  | [] => some []
  | item :: items => do return (← ofRaw? depth item) :: (← itemsOfRaw? depth items)
  termination_by structural raws => raws

/-- The meanings of the members of an object, in the order of the text. -/
def membersOfRaw? (depth : Nat) : List (RawText × Raw) → Option (List (String × Json))
  | [] => some []
  | (key, value) :: members => do
    return (← key.text?, ← ofRaw? depth value) :: (← membersOfRaw? depth members)
  termination_by structural raws => raws

end

/-- The value of a text. -/
def read? (text : String) : Option Json :=
  (Raw.read? text.toList).bind (ofRaw? depthLimit)

end Json

end Leasehold
