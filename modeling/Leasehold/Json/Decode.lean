import Leasehold.Json.Value

/-!
# Taking a document apart

Documents of a known shape are read from their syntax tree. A map takes any
keys, the last of two equal ones winning, though every value has to be of the
right shape. A record has named fields: one that is given twice is an error,
one that nobody knows is ignored whatever it holds, and an array of the fields
in order will do in place of an object.
-/

namespace Leasehold.Json.Raw

/-- The text of a string. -/
def text? : Raw → Option String
  | .text units => units.text?
  | _ => none

/-- The number of a number literal without point and exponent. -/
def natural? : Raw → Option Nat
  | .number literal =>
    match Number.ofLiteral? literal with
    | some (.integer value) => if 0 ≤ value then some value.toNat else none
    | _ => none
  | _ => none

/-- The pairs of an object, its values read by `decode`. -/
def pairs? {α : Type} (decode : Raw → Option α) : Raw → Option (List (String × α))
  | .object members => members.mapM fun (key, value) => do return (← key.text?, ← decode value)
  | _ => none

/-- A map, its values read by `decode`. -/
def map? {α : Type} (decode : Raw → Option α) (raw : Raw) : Option (TextMap α) :=
  (raw.pairs? decode).map TextMap.ofList

/-- Nothing for `null`, and otherwise what `decode` reads. -/
def optional? {α : Type} (decode : Raw → Option α) : Raw → Option (Option α)
  | .null => some none
  | raw => (decode raw).map some

/-- The values of one field among members with proper keys. -/
def valuesOf (name : String) (members : List (String × Raw)) : List Raw :=
  (members.filter fun member => member.1 == name).map Prod.snd

/-- The values of the named fields of a record, as far as they are given. -/
def fields? (names : List String) : Raw → Option (List (Option Raw))
  | .object members => do
    let members ← members.mapM fun (key, value) => do return (← key.text?, value)
    names.mapM fun name =>
      match valuesOf name members with
      | [] => some none
      | [value] => some (some value)
      | _ => none
  | .array items =>
    if items.length ≤ names.length then
      some (items.map some ++ List.replicate (names.length - items.length) none)
    else none
  | _ => none

end Leasehold.Json.Raw
