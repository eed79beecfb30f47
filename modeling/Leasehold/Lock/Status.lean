import Leasehold.Lock.Record

/-!
# The status of the lock

The status of the lock is what anybody can learn of it in two store calls: who
has it, and for how long. A lock without expiry is stale, for nothing would ever
end it.
-/

namespace Leasehold

/-- What can be told of the lock. -/
inductive LockStatus where
  | unlocked
  | stale (owner : Option Pid)
  | held (owner : Option Pid) (remaining : Duration)
  deriving DecidableEq, Repr

namespace LockStatus

/-- A status as it is shown. -/
def text : LockStatus → String
  | .unlocked => "unlocked"
  | .stale owner => "locked by pid " ++ ownerText owner ++ " (STALE: no expiry)"
  | .held owner remaining =>
    "locked by pid " ++ ownerText owner ++ " (" ++ (Lifetime.expires remaining).text ++ ")"

/-- The status of a record with an owner. -/
def ofLifetime (owner : Option Pid) : Lifetime → LockStatus
  | .missing => .unlocked
  | .persistent => .stale owner
  | .expires remaining => .held owner remaining

/-- Finds out the status of a lock. -/
def find (key : String) : LockProgram (Except Failure LockStatus) := do
  match ← LockRecord.readOwner key with
  | .error failure => return .error failure
  | .ok none => return .ok .unlocked
  | .ok (some owner) =>
    match ← LockRecord.ask (.lifetime key) with
    | .error failure => return .error failure
    | .ok lifetime => return .ok (ofLifetime owner lifetime)

end LockStatus

end Leasehold
