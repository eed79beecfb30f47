import Leasehold.Lock.Standing
import Leasehold.Time.Seconds

/-!
# Log events

What the lock and the commands report while they work. An event is data; its
level, its message and its named fields are functions of it.
-/

namespace Leasehold

/-- How important an event is. -/
inductive LogLevel where
  | debug
  | info
  | warn
  deriving DecidableEq, Repr

/-- The value of a field of an event. -/
inductive LogValue where
  | natural (n : Nat)
  | real (x : Binary64)
  | text (s : String)
  deriving DecidableEq, Repr

/-- Something worth reporting. -/
inductive LogEvent where
  | alreadyHeld (key : String) (pid : Pid)
  | acquired (key : String) (pid : Pid)
  | unavailable (key : String) (pid : Pid) (owner : Option Pid)
  | timerReset (key : String) (pid : Pid) (ttl : Duration)
  | changedConcurrently (key : String) (pid : Pid)
  | extended (key : String) (pid : Pid)
  | reacquired (key : String) (pid : Pid)
  | lost (key : String) (pid : Pid) (owner : Option Pid)
  | releaseSkipped (key : String) (pid : Pid) (standing : Standing)
  | released (key : String) (pid : Pid)
  | alreadyGone (key : String) (pid : Pid)
  | releaseFailed (key : String) (failure : Failure)
  | releaseAfterCommitFailed (key : String) (failure : Failure)
  | beatFailed (failure : Failure)
  | saved (file : String) (tables : Nat)
  | loaded (file : String) (records : Nat)
  | lockTableIgnored (table file : String)
  | auditFailed (failure : Failure)
  deriving DecidableEq, Repr

namespace LogEvent

/-- How important an event is. -/
def level : LogEvent → LogLevel
  | .alreadyHeld .. => .debug
  | .acquired .. => .info
  | .unavailable .. => .info
  | .timerReset .. => .warn
  | .changedConcurrently .. => .info
  | .extended .. => .debug
  | .reacquired .. => .info
  | .lost .. => .warn
  | .releaseSkipped .. => .debug
  | .released .. => .info
  | .alreadyGone .. => .debug
  | .releaseFailed .. => .warn
  | .releaseAfterCommitFailed .. => .warn
  | .beatFailed _ => .warn
  | .saved .. => .info
  | .loaded .. => .info
  | .lockTableIgnored .. => .warn
  | .auditFailed _ => .warn

/-- The message of an event. -/
def message : LogEvent → String
  | .alreadyHeld .. => "lock already held"
  | .acquired .. => "lock acquired"
  | .unavailable .. => "can not acquire lock, abort"
  | .timerReset .. => "lock entry had no expiry; timer reset, abort"
  | .changedConcurrently .. => "lock changed concurrently, abort"
  | .extended .. => "lock timer extended"
  | .reacquired .. => "lock reacquired"
  | .lost .. => "lock lost to another holder"
  | .releaseSkipped .. => "release skipped: lock not held"
  | .released .. => "lock released"
  | .alreadyGone .. => "lock entry already gone at release"
  | .releaseFailed .. => "failed to release lock"
  | .releaseAfterCommitFailed .. => "failed to release lock after commit"
  | .beatFailed _ => "lock heartbeat failed"
  | .saved .. => "configuration saved"
  | .loaded .. => "configuration loaded"
  | .lockTableIgnored .. => "ignoring lock table in configuration file"
  | .auditFailed _ => "failed to record audit event"

/-- The key of a lock and a process. -/
private def keyAndPid (key : String) (pid : Pid) : List (String × LogValue) :=
  [("key", .text key), ("pid", .natural pid.toNat)]

/-- The fields of an event. -/
def fields : LogEvent → List (String × LogValue)
  | .alreadyHeld key pid => keyAndPid key pid
  | .acquired key pid => keyAndPid key pid
  | .unavailable key pid owner => keyAndPid key pid ++ [("owner", .text (ownerDiagnostic owner))]
  | .timerReset key pid ttl => keyAndPid key pid ++ [("ttl_secs", .real ttl.inSeconds)]
  | .changedConcurrently key pid => keyAndPid key pid
  | .extended key pid => keyAndPid key pid
  | .reacquired key pid => keyAndPid key pid
  | .lost key pid owner => keyAndPid key pid ++ [("owner", .text (ownerDiagnostic owner))]
  | .releaseSkipped key pid standing => keyAndPid key pid ++ [("state", .text standing.text)]
  | .released key pid => keyAndPid key pid
  | .alreadyGone key pid => keyAndPid key pid
  | .releaseFailed key failure => [("key", .text key), ("error", .text failure.message)]
  | .releaseAfterCommitFailed key failure =>
    [("key", .text key), ("error", .text failure.message)]
  | .beatFailed failure => [("error", .text failure.message)]
  | .saved file tables => [("file", .text file), ("tables", .natural tables)]
  | .loaded file records => [("file", .text file), ("records", .natural records)]
  | .lockTableIgnored table file => [("table", .text table), ("file", .text file)]
  | .auditFailed failure => [("error", .text failure.message)]

end LogEvent

end Leasehold
