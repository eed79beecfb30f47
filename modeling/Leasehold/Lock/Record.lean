import Leasehold.Log
import Leasehold.Store
import Leasehold.Text.Blank
import Leasehold.Text.Decimal

/-!
# The lock record

The lock is a record of the store: that it exists is the lock, its one field
names the owner, and its expiry heals the lock of an owner that died. Each
function here is a single store call, and those that act for an owner have the
owner checked within that call.
-/

namespace Leasehold.LockRecord

/-! ## Names and defaults -/

/-- The table of the lock record, which is never saved or loaded. -/
def table : String :=
  "LOCK"

/-- The name of the lock record. -/
def record : String :=
  "configDbLock"

/-- The field that names the owner. -/
def ownerField : String :=
  "PID"

/-- The key of the lock record. -/
def key : String :=
  Key.compose table record

/-- How long the lock lives unless it is renewed. -/
def defaultTtl : Duration :=
  .ofSeconds 10

/-- How often the lock is renewed. -/
def defaultHeartbeat : Duration :=
  .ofSeconds 3

/-- Whether a table may be saved and loaded. -/
def isPersistable (table : String) : Bool :=
  table != LockRecord.table

/-! ## Owners -/

/-- The text that names an owner. -/
def ownerText (owner : Pid) : String :=
  String.ofList (Text.decimal owner.toNat)

/-- The fields of a record with an owner. -/
def ownedBy (owner : Pid) : Fields :=
  TextMap.empty.insert ownerField (ownerText owner)

/-- The process that a text names: blanks around a number that may have a plus
sign and leading zeros, as long as it is a process number. -/
def readOwner? (text : String) : Option Pid :=
  let digits := match Text.trim text.toList with
    | '+' :: rest => rest
    | cs => cs
  match Text.readDecimal? digits with
  | some n => if n < UInt32.size then some (UInt32.ofNat n) else none
  | none => none

/-- The owner that fields name. -/
def ownerOf? (fields : Fields) : Option Pid :=
  (fields.get? ownerField).bind readOwner?

/-- That the owner field is exactly the text of an owner. -/
def isOwnedBy (owner : Pid) : Condition :=
  .fieldEquals ownerField (ownerText owner)

end LockRecord

/-! ## Requests -/

/-- What the lock asks of its surroundings: a store call, or to take note. -/
inductive LockRequest where
  | store (call : StoreCall)
  | log (event : LogEvent)

namespace LockRequest

/-- The reply to a request. -/
@[reducible]
def Reply : LockRequest → Type
  | .store call => call.Reply
  | .log _ => Unit

end LockRequest

/-- A program of store calls and notes. -/
abbrev LockProgram (α : Type) : Type :=
  Program LockRequest.Reply α

namespace LockRecord

/-- One store call. -/
def ask (call : StoreCall) : LockProgram call.Reply :=
  Program.perform (LockRequest.store call)

/-- Takes note of an event. -/
def note (event : LogEvent) : LockProgram Unit :=
  Program.perform (LockRequest.log event)

/-- Creates the record of an owner unless there is one. -/
def createIfAbsent (key : String) (owner : Pid) (ttl : Duration) :
    LockProgram (Except Failure Bool) :=
  ask (.create key (ownedBy owner) ttl)

/-- The owner of the record, if there is a record; an owner that cannot be read
is none. -/
def readOwner (key : String) : LockProgram (Except Failure (Option (Option Pid))) := do
  return (← ask (.fetch key)).map fun fields => fields.map ownerOf?

/-- Whether there is a record and it expires. -/
def hasExpiry (key : String) : LockProgram (Except Failure Bool) := do
  return (← ask (.lifetime key)).map Lifetime.hasExpiry

/-- Renews the expiry of a record that has this very owner. -/
def refreshExpiry (key : String) (owner : Pid) (ttl : Duration) :
    LockProgram (Except Failure Bool) :=
  ask (.expire key ttl (isOwnedBy owner))

/-- Gives an expiry to a record that has none, without claiming it. -/
def setExpiry (key : String) (ttl : Duration) : LockProgram (Except Failure Bool) :=
  ask (.expire key ttl .noExpiry)

/-- Deletes a record that has this very owner. -/
def delete (key : String) (owner : Pid) : LockProgram (Except Failure Bool) :=
  ask (.delete key (isOwnedBy owner))

end LockRecord

end Leasehold
