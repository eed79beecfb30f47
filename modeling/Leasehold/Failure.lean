import Leasehold.FileSystem.Failure

/-!
# Failures of commands

Everything that can end a command before it has done its work: a request that
makes no sense or cannot be carried out, a store that does not answer, or a lock
that is not to be had. The kind of failure decides the exit code.
-/

namespace Leasehold

/-- The number of a process. -/
abbrev Pid :=
  UInt32

/-- What is wrong with settings that could be read. -/
inductive SettingsFlaw where
  | ttlZero
  | heartbeatZero
  | heartbeatNotBelowTtl (heartbeat ttl : Nat)
  | fileBlank
  deriving DecidableEq, Repr

/-- The text of a flaw. -/
def SettingsFlaw.message : SettingsFlaw → String
  | .ttlZero => "lock_ttl_secs must be greater than 0"
  | .heartbeatZero => "heartbeat_interval_secs must be greater than 0"
  | .heartbeatNotBelowTtl heartbeat ttl =>
    "heartbeat_interval_secs (" ++ toString heartbeat ++ ") must be less than lock_ttl_secs (" ++
      toString ttl ++ ")"
  | .fileBlank => "config_file must be non-empty"

/-- Why the store did not answer. -/
inductive StoreFault where
  | directory (path : String) (cause : IoFailure)
  | opening (path : String) (cause : IoFailure)
  | locking (path : String) (cause : IoFailure)
  | reading (path : String) (cause : IoFailure)
  | malformed (path : String)
  | writing (path : String) (cause : IoFailure)
  | stated (text : String)
  deriving DecidableEq, Repr

/-- The text of a fault. -/
def StoreFault.message : StoreFault → String
  | .directory path cause =>
    "failed to create store directory '" ++ path ++ "': " ++ cause.message
  | .opening path cause => "failed to open '" ++ path ++ "': " ++ cause.message
  | .locking path cause => "failed to lock '" ++ path ++ "': " ++ cause.message
  | .reading path cause => "failed to read '" ++ path ++ "': " ++ cause.message
  | .malformed path => "failed to parse store '" ++ path ++ "': not a keyspace"
  | .writing path cause => "failed to write '" ++ path ++ "': " ++ cause.message
  | .stated text => text

/-- Why a request was turned down. -/
inductive Problem where
  | heartbeatIntervalZero
  | confirmationUnread (cause : IoFailure)
  | settingsUnreadable (path : String) (cause : IoFailure)
  | settingsMalformed
  | settingsInvalid (flaw : SettingsFlaw)
  | snapshotMissing (path : String)
  | snapshotUnreadable (path : String) (cause : IoFailure)
  | snapshotMalformed (path : String)
  | snapshotUnwritten (path : String) (cause : IoFailure)
  | auditDirectory (path : String) (cause : IoFailure)
  | auditUnopened (path : String) (cause : IoFailure)
  | auditUnwritten (path : String) (cause : IoFailure)
  | auditUnreadable (path : String) (cause : IoFailure)
  | auditMalformed
  | nameEmpty
  | tableSeparated (table : String)
  | pairWithoutValue (pair : String)
  | pairWithoutField (pair : String)
  | recordMissing (key : String)
  | stated (text : String)
  deriving DecidableEq, Repr

/-- The text of a problem. -/
def Problem.message : Problem → String
  | .heartbeatIntervalZero => "heartbeat interval must be greater than 0"
  | .confirmationUnread cause => "failed to read confirmation: " ++ cause.message
  | .settingsUnreadable path cause =>
    "failed to read config file '" ++ path ++ "': " ++ cause.message
  | .settingsMalformed => "failed to parse config YAML: not a mapping of settings"
  | .settingsInvalid flaw => "config validation failed: " ++ flaw.message
  | .snapshotMissing path => "configuration file '" ++ path ++ "' does not exist"
  | .snapshotUnreadable path cause =>
    "failed to read configuration '" ++ path ++ "': " ++ cause.message
  | .snapshotMalformed path =>
    "failed to parse configuration '" ++ path ++ "': not a map of tables"
  | .snapshotUnwritten path cause =>
    "failed to write configuration '" ++ path ++ "': " ++ cause.message
  | .auditDirectory path cause =>
    "failed to create events directory '" ++ path ++ "': " ++ cause.message
  | .auditUnopened path cause => "failed to open events file '" ++ path ++ "': " ++ cause.message
  | .auditUnwritten path cause => "failed to write event to '" ++ path ++ "': " ++ cause.message
  | .auditUnreadable path cause =>
    "failed to read events file '" ++ path ++ "': " ++ cause.message
  | .auditMalformed => "failed to parse event: not an event"
  | .nameEmpty => "table and record names must be non-empty"
  | .tableSeparated table => "table name '" ++ table ++ "' must not contain '|'"
  | .pairWithoutValue pair => "invalid field '" ++ pair ++ "': expected FIELD=VALUE"
  | .pairWithoutField pair => "invalid field '" ++ pair ++ "': field name is empty"
  | .recordMissing key => "record '" ++ key ++ "' not found"
  | .stated text => text

/-- Why a command failed. -/
inductive Failure where
  | user (problem : Problem)
  | aborted
  | storeUnavailable (fault : StoreFault)
  | lockUnavailable (owner : Option Pid)
  | staleLock
  | lockLost (owner : Option Pid)
  deriving DecidableEq, Repr

/-- An owner as it is shown: its number, or that it is not known. -/
def ownerText : Option Pid → String
  | some pid => toString pid.toNat
  | none => "unknown"

namespace Failure

/-- The text of a failure. -/
def message : Failure → String
  | .user problem => problem.message
  | .aborted => "Aborted!"
  | .storeUnavailable fault => "Store unavailable: " ++ fault.message
  | .lockUnavailable owner => "Can not acquire lock, Abort (held by pid " ++ ownerText owner ++ ")"
  | .staleLock => "Can not acquire lock, Reset Timer & Abort"
  | .lockLost owner =>
    "Can not acquire lock, Abort (lock lost to pid " ++ ownerText owner ++ " while waiting)"

end Failure

namespace ExitCode

/-- The command did its work. -/
def success : Nat :=
  0

/-- The request was turned down or called off. -/
def user : Nat :=
  1

/-- The store did not answer. -/
def store : Nat :=
  2

/-- The lock was not to be had. -/
def lock : Nat :=
  3

end ExitCode

namespace Failure

/-- The exit code of a command that failed. -/
def exitCode : Failure → Nat
  | .user _ => ExitCode.user
  | .aborted => ExitCode.user
  | .storeUnavailable _ => ExitCode.store
  | .lockUnavailable _ => ExitCode.lock
  | .staleLock => ExitCode.lock
  | .lockLost _ => ExitCode.lock

/-- Whether a failure is one of the lock. -/
def isLockFailure (failure : Failure) : Bool :=
  failure.exitCode == ExitCode.lock

end Failure

end Leasehold
