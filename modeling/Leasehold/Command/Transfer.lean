import Leasehold.Audit.Trail
import Leasehold.Home
import Leasehold.Host
import Leasehold.Settings

/-!
# Commands that save and load

Saving and loading take the file from the command or from the settings of the
store, and put on record how they ended: what was done, or that it was given up
and why. Failing to record that changes nothing.
-/

namespace Leasehold.TransferCommand

/-- Who runs a command. -/
def actor (caller : Caller) : HostProgram String := do
  match ← HostProgram.setting? "USER" with
  | some user => return user ++ "@" ++ caller.hostName
  | none =>
    let user ← HostProgram.setting? "USERNAME"
    return user.getD "unknown" ++ "@" ++ caller.hostName

/-- An event of now. -/
def currentEvent (caller : Caller) (action : AuditAction) (details : Json) :
    HostProgram AuditEvent := do
  let time ← HostProgram.clock
  let actor ← actor caller
  return ⟨time, action, actor, caller.pid, details⟩

/-- What was asked for and what came of it, as a JSON object. -/
def request (path : Path) (unit : String) (count : Nat) : Json :=
  .object [("file", .text path), (unit, .ofNat count)]

/-- What is recorded of a failure. -/
def abortDetails (action : AuditAction) (failure : Failure) (request : Json) : Json :=
  .object
    [("command", .text action.text),
      ("lock_failure", .boolean failure.isLockFailure),
      ("reason", .text failure.message),
      ("request", request)]

/-- What is recorded of an action: that it was done or given up, with details. -/
def report (action : AuditAction) (path : Path) (unit : String) :
    Except Failure Nat → AuditAction × Json
  | .ok count => (action, request path unit count)
  | .error failure => (.abort, abortDetails action failure (request path unit 0))

/-- Puts on record how an action ended, if events are recorded. -/
def recordOutcome (caller : Caller) (home : Path) (settings : Settings)
    (outcome : AuditAction × Json) : HostProgram Unit := do
  if settings.recordsEvents then
    let event ← currentEvent caller outcome.1 outcome.2
    match ← HostProgram.ofFiles (AuditTrail.append home event) with
    | .ok () => return ()
    | .error failure => HostProgram.note (.auditFailed failure)
  else return ()

/-- Saves the configuration. -/
def save (caller : Caller) (home : Path) (file : Option Path) (asks : Bool) :
    HostProgram (Except Failure Unit) := do
  match ← HostProgram.ofFiles (Settings.load (Home.settingsPath home)) with
  | .error failure => return .error failure
  | .ok settings =>
    match ← HostProgram.ofFiles (Database.prepare home) with
    | .error failure => return .error failure
    | .ok () =>
      let path := file.getD (settings.filePath home)
      let (outcome, _) ← HostProgram.onDatabase caller.pid home
        (Transfer.save caller.pid settings.timing path asks)
      let outcome := outcome.map TextMap.size
      recordOutcome caller home settings (report .save path "tables" outcome)
      match outcome with
      | .error failure => return .error failure
      | .ok tables =>
        HostProgram.printLine ("Saved " ++ toString tables ++ " tables to " ++ path)
        return .ok ()

/-- Loads the configuration. -/
def load (caller : Caller) (home : Path) (file : Option Path) (asks : Bool) :
    HostProgram (Except Failure Unit) := do
  match ← HostProgram.ofFiles (Settings.load (Home.settingsPath home)) with
  | .error failure => return .error failure
  | .ok settings =>
    let path := file.getD (settings.filePath home)
    if ← HostProgram.ofFiles (FileCall.isFile path).perform then
      match ← HostProgram.ofFiles (Database.prepare home) with
      | .error failure => return .error failure
      | .ok () =>
        let (outcome, _) ← HostProgram.onDatabase caller.pid home
          (Transfer.load caller.pid settings.timing path asks)
        recordOutcome caller home settings (report .load path "records" outcome)
        match outcome with
        | .error failure => return .error failure
        | .ok records =>
          HostProgram.printLine ("Loaded " ++ toString records ++ " records from " ++ path)
          return .ok ()
    else return .error (.user (.snapshotMissing path))

end Leasehold.TransferCommand
