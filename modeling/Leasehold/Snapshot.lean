import Leasehold.FileSystem.Replace
import Leasehold.Keyspace.Codec
import Leasehold.Procedure

/-!
# Snapshots

A snapshot is the tables of a store, as a JSON object of tables, records and
fields. The lock table does not take part: it is neither taken from a store nor
put into one, and reading a file leaves it out.
-/

namespace Leasehold.Snapshot

/-- Tables as a JSON object. -/
def toJson (tables : Tables) : Json :=
  Json.ofMap (tables.map fun records => Json.ofMap (records.map Fields.toJson))

/-- The text of a snapshot file. -/
def write (tables : Tables) : String :=
  (toJson tables).pretty ++ "\n"

/-- The tables that a text holds. -/
def read? (text : String) : Option Tables := do
  let raw ← Json.Raw.read? text.toList
  raw.map? fun records => records.map? Fields.ofRaw?

/-- Tables without the lock table. -/
def persistable (tables : Tables) : Tables :=
  tables.filter fun table _ => LockRecord.isPersistable table

/-- The store call that takes a snapshot. -/
def dump : StoreCall :=
  .dump LockRecord.isPersistable

/-- The store call that puts a snapshot in place of what is there. -/
def restore (tables : Tables) : StoreCall :=
  .replace tables LockRecord.isPersistable

/-- Writes a snapshot to a file, which holds either all of it or what it held. -/
def writeTo (pid : Pid) (tables : Tables) (path : Path) : FileProgram (Except Failure Unit) := do
  match ← FileSystem.replaceFile pid.toNat path (write tables).toUTF8 with
  | .ok () => return .ok ()
  | .error cause => return .error (.user (.snapshotUnwritten path cause))

/-- Takes note of every lock table that a file holds. -/
def noteIgnored (path : Path) : List String → Procedure Unit
  | [] => return ()
  | table :: tables => do
    Procedure.note (.lockTableIgnored table path)
    noteIgnored path tables

/-- Reads a snapshot from a file and leaves the lock table out. -/
def readFrom (path : Path) : Procedure (Except Failure Tables) := do
  match ← Procedure.ofFiles (FileSystem.readText path) with
  | .error cause => return .error (.user (.snapshotUnreadable path cause))
  | .ok text =>
    match read? text with
    | none => return .error (.user (.snapshotMalformed path))
    | some tables =>
      noteIgnored path (tables.keys.filter fun table => !LockRecord.isPersistable table)
      return .ok (persistable tables)

end Leasehold.Snapshot
