import Leasehold.Protected
import Leasehold.Snapshot

/-!
# Saving and loading

The configuration is saved to a file by taking a snapshot of the store, and
loaded from a file by putting the snapshot in it in place of what the store
holds. Both are done under the lock, after a question unless none is wanted.
-/

namespace Leasehold

/-- How long the lock lives and how often it is renewed. -/
structure LockTiming where
  ttl : Duration
  heartbeat : Duration
  deriving DecidableEq, Repr

/-- The timing that is used unless another is set. -/
def LockTiming.default : LockTiming :=
  ⟨LockRecord.defaultTtl, LockRecord.defaultHeartbeat⟩

namespace Transfer

/-- The question before a file is overwritten. -/
def saveQuestion : String :=
  "Existing file will be overwritten, continue?"

/-- The question before the store is overwritten. -/
def loadQuestion (path : Path) : String :=
  "Load config from the file " ++ path ++ "?"

/-- Takes a snapshot and writes it to a file. -/
def exportTo (pid : Pid) (path : Path) : Procedure (Except Failure Tables) := do
  match ← Procedure.ask Snapshot.dump with
  | .error failure => return .error failure
  | .ok tables =>
    match ← Procedure.ofFiles (Snapshot.writeTo pid tables path) with
    | .error failure => return .error failure
    | .ok () =>
      Procedure.note (.saved path tables.size)
      return .ok tables

/-- Reads a snapshot from a file and puts it into the store; the number of records. -/
def importFrom (path : Path) : Procedure (Except Failure Nat) := do
  match ← Snapshot.readFrom path with
  | .error failure => return .error failure
  | .ok tables =>
    match ← Procedure.ask (Snapshot.restore tables) with
    | .error failure => return .error failure
    | .ok records =>
      Procedure.note (.loaded path records)
      return .ok records

/-- Saves the configuration to a file. -/
def save (pid : Pid) (timing : LockTiming) (path : Path) (asks : Bool) :
    Procedure (Except Failure Tables × Claimant) :=
  Procedure.runProtected (Claimant.ofPid pid timing.ttl) timing.heartbeat
    (if asks then some saveQuestion else none)
    fun c => do return (← exportTo pid path, c)

/-- Loads the configuration from a file. -/
def load (pid : Pid) (timing : LockTiming) (path : Path) (asks : Bool) :
    Procedure (Except Failure Nat × Claimant) :=
  Procedure.runProtected (Claimant.ofPid pid timing.ttl) timing.heartbeat
    (if asks then some (loadQuestion path) else none)
    fun c => do return (← importFrom path, c)

end Transfer

end Leasehold
