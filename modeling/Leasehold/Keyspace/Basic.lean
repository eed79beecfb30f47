import Leasehold.Keyspace.Key
import Leasehold.TextMap
import Leasehold.Time.Instant
import Leasehold.Time.Seconds

/-!
# Keyspaces

A keyspace holds records under keys. A record has fields and, if it is to vanish
by itself, an expiry. Expired records stay until they are purged; purging first
and then doing one operation makes them as good as absent. The `dirty` mark says
that the records may differ from those last written down.
-/

namespace Leasehold

/-- The fields of a record. -/
abbrev Fields :=
  TextMap String

/-- Records by name, and those by table. -/
abbrev Tables :=
  TextMap (TextMap Fields)

/-- The tables that an operation is about. -/
abbrev TableFilter :=
  String → Bool

/-- A record. -/
structure Entry where
  fields : Fields
  expiresAt : Option Instant
  deriving DecidableEq

/-- Whether the expiry of a record has come. -/
def Entry.isExpired (entry : Entry) (now : Instant) : Bool :=
  entry.expiresAt.any fun expiry => expiry ≤ now

/-- What has to hold of a record for a change to be made. -/
inductive Condition where
  | always
  | noExpiry
  | fieldEquals (field value : String)
  deriving DecidableEq, Repr

/-- Whether a condition holds of a record. -/
def Condition.holds : Condition → Entry → Bool
  | .always, _ => true
  | .noExpiry, entry => entry.expiresAt.isNone
  | .fieldEquals field value, entry => entry.fields.get? field == some value

/-- How long a record has to live. -/
inductive Lifetime where
  | missing
  | persistent
  | expires (remaining : Duration)
  deriving DecidableEq, Repr

namespace Lifetime

/-- Whether there is a record with an expiry. -/
def hasExpiry : Lifetime → Bool
  | .expires _ => true
  | _ => false

/-- A lifetime as it is shown. -/
def text : Lifetime → String
  | .missing => "missing"
  | .persistent => "no expiry"
  | .expires remaining => "expires in " ++ remaining.tenths

end Lifetime

/-- Records under keys, and whether they may have changed. -/
structure Keyspace where
  entries : TextMap Entry
  dirty : Bool
  deriving DecidableEq

namespace Keyspace

/-- The keyspace without records. -/
def empty : Keyspace :=
  ⟨.empty, false⟩

instance : Inhabited Keyspace :=
  ⟨empty⟩

/-- Removes the records whose expiry has come. -/
def purge (keyspace : Keyspace) (now : Instant) : Keyspace :=
  let kept := keyspace.entries.filter fun _ entry => !entry.isExpired now
  ⟨kept, keyspace.dirty || kept.size != keyspace.entries.size⟩

/-- Creates a record that expires after `ttl`, unless the key is taken. -/
def create (keyspace : Keyspace) (key : String) (fields : Fields) (ttl : Duration)
    (now : Instant) : Bool × Keyspace :=
  if keyspace.entries.contains key then (false, keyspace)
  else (true, ⟨keyspace.entries.insert key ⟨fields, some (now.add ttl)⟩, true⟩)

/-- Puts fields over those of a record, which keeps its expiry; a record that is
not there is created without one. -/
def merge (keyspace : Keyspace) (key : String) (fields : Fields) : Keyspace :=
  let entry := (keyspace.entries.get? key).getD ⟨.empty, none⟩
  ⟨keyspace.entries.insert key { entry with fields := entry.fields.overlay fields }, true⟩

/-- The fields of a record. -/
def fetch (keyspace : Keyspace) (key : String) : Option Fields :=
  (keyspace.entries.get? key).map Entry.fields

/-- Makes a record of which `condition` holds expire after `ttl`. -/
def expire (keyspace : Keyspace) (key : String) (ttl : Duration) (condition : Condition)
    (now : Instant) : Bool × Keyspace :=
  match keyspace.entries.get? key with
  | some entry =>
    if condition.holds entry then
      (true, ⟨keyspace.entries.insert key { entry with expiresAt := some (now.add ttl) }, true⟩)
    else (false, keyspace)
  | none => (false, keyspace)

/-- How long a record has to live; none at all once its expiry has come. -/
def lifetime (keyspace : Keyspace) (key : String) (now : Instant) : Lifetime :=
  match keyspace.entries.get? key with
  | none => .missing
  | some ⟨_, none⟩ => .persistent
  | some ⟨_, some expiry⟩ => .expires (now.elapsed expiry)

/-- Removes a record of which `condition` holds. -/
def delete (keyspace : Keyspace) (key : String) (condition : Condition) : Bool × Keyspace :=
  if (keyspace.entries.get? key).any condition.holds then
    (true, ⟨keyspace.entries.erase key, true⟩)
  else (false, keyspace)

/-- The keys in order. -/
def keys (keyspace : Keyspace) : List String :=
  keyspace.entries.keys

/-- Whether a key belongs to a table of the filter. -/
def inTables (filter : TableFilter) (key : String) : Bool :=
  (Key.split? key).any fun (table, _) => filter table

/-- Adds a record to the tables it is seen under. -/
def addRecord (filter : TableFilter) (tables : Tables) (key : String) (fields : Fields) : Tables :=
  match Key.split? key with
  | some (table, record) =>
    if filter table then
      tables.insert table (((tables.get? table).getD .empty).insert record fields)
    else tables
  | none => tables

/-- The records of the tables of a filter; keys without table are left out. -/
def tables (keyspace : Keyspace) (filter : TableFilter) : Tables :=
  keyspace.entries.toList.foldl
    (fun found (key, entry) => addRecord filter found key entry.fields) .empty

/-- The records of tables with their keys, table by table. -/
def recordsOf (tables : Tables) : List (String × Fields) :=
  tables.toList.flatMap fun (table, records) =>
    records.toList.map fun (record, fields) => (Key.compose table record, fields)

/-- Replaces the tables of a filter by the given ones, of which those outside the
filter do not count. Records put in have no expiry. Gives their number. -/
def replaceTables (keyspace : Keyspace) (tables : Tables) (filter : TableFilter) :
    Nat × Keyspace :=
  let kept := keyspace.entries.filter fun key _ => !inTables filter key
  let records := recordsOf (tables.filter fun table _ => filter table)
  (records.length,
    ⟨kept.insertMany (records.map fun (key, fields) => (key, ⟨fields, none⟩)), true⟩)

end Keyspace

end Leasehold
