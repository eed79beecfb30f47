import Leasehold.Failure
import Leasehold.Keyspace.Basic
import Leasehold.Program

/-!
# Store calls

A store is a keyspace that several processes share. A call is one operation on
it that nothing can come between: expired records are purged, and then the
operation is done.
-/

namespace Leasehold

/-- One operation on a store. -/
inductive StoreCall where
  | create (key : String) (fields : Fields) (ttl : Duration)
  | merge (key : String) (fields : Fields)
  | fetch (key : String)
  | expire (key : String) (ttl : Duration) (condition : Condition)
  | lifetime (key : String)
  | delete (key : String) (condition : Condition)
  | keys
  | dump (filter : TableFilter)
  | replace (tables : Tables) (filter : TableFilter)

namespace StoreCall

/-- What an operation answers. -/
@[reducible]
def Answer : StoreCall → Type
  | .create .. => Bool
  | .merge .. => Unit
  | .fetch _ => Option Fields
  | .expire .. => Bool
  | .lifetime _ => Lifetime
  | .delete .. => Bool
  | .keys => List String
  | .dump _ => Tables
  | .replace .. => Nat

/-- The reply to a call: its answer, or why there is none. -/
@[reducible]
def Reply (call : StoreCall) : Type :=
  Except Failure call.Answer

end StoreCall

namespace Keyspace

/-- An operation on the records that are there, expired or not. -/
def apply (keyspace : Keyspace) (now : Instant) : (call : StoreCall) → call.Answer × Keyspace
  | .create key fields ttl => keyspace.create key fields ttl now
  | .merge key fields => ((), keyspace.merge key fields)
  | .fetch key => (keyspace.fetch key, keyspace)
  | .expire key ttl condition => keyspace.expire key ttl condition now
  | .lifetime key => (keyspace.lifetime key now, keyspace)
  | .delete key condition => keyspace.delete key condition
  | .keys => (keyspace.keys, keyspace)
  | .dump filter => (keyspace.tables filter, keyspace)
  | .replace tables filter => keyspace.replaceTables tables filter

/-- A call to a store: a purge and then the operation. -/
def serve (keyspace : Keyspace) (now : Instant) (call : StoreCall) : call.Answer × Keyspace :=
  (keyspace.purge now).apply now call

end Keyspace

end Leasehold
