import Leasehold.Json.Decode
import Leasehold.Json.Printer
import Leasehold.Keyspace.Basic
import Leasehold.Time.Timestamp

/-!
# Keyspaces as text

A keyspace is written as a JSON object whose one member `entries` holds the
records by key. A record has `fields` and, if it expires, `expires_at`.
-/

namespace Leasehold

/-- Fields as a JSON object of strings. -/
def Fields.toJson (fields : Fields) : Json :=
  Json.ofMap (fields.map Json.text)

/-- Fields from a JSON object of strings. -/
def Fields.ofRaw? (raw : Json.Raw) : Option Fields :=
  raw.map? Json.Raw.text?

/-- An instant as a JSON string. -/
def Instant.toJson (t : Instant) : Json :=
  .text (String.ofList (Timestamp.write t))

/-- An instant from a JSON string. -/
def Instant.ofRaw? (raw : Json.Raw) : Option Instant :=
  raw.text?.bind fun text => Timestamp.read? text.toList

/-- A record as a JSON object. -/
def Entry.toJson (entry : Entry) : Json :=
  let fields := ("fields", entry.fields.toJson)
  match entry.expiresAt with
  | none => .object [fields]
  | some expiry => .object [fields, ("expires_at", expiry.toJson)]

/-- A record from a JSON object, which has to have fields. -/
def Entry.ofRaw? (raw : Json.Raw) : Option Entry := do
  match ← raw.fields? ["fields", "expires_at"] with
  | [some fields, expiry] =>
    let expiresAt ← match expiry with
      | none => some none
      | some raw => raw.optional? Instant.ofRaw?
    return ⟨← Fields.ofRaw? fields, expiresAt⟩
  | _ => none

namespace Keyspace

/-- The records of a keyspace as a JSON object. -/
def entriesJson (keyspace : Keyspace) : Json :=
  Json.ofMap (keyspace.entries.map Entry.toJson)

/-- The text of a keyspace. -/
def write (keyspace : Keyspace) : String :=
  (Json.object [("entries", keyspace.entriesJson)]).pretty

/-- The keyspace of a text, not dirty. -/
def read? (text : String) : Option Keyspace := do
  let raw ← Json.Raw.read? text.toList
  match ← raw.fields? ["entries"] with
  | [some entries] => return ⟨← entries.map? Entry.ofRaw?, false⟩
  | [none] => return empty
  | _ => none

end Keyspace

end Leasehold
