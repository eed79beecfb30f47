import Leasehold.Audit.Event
import Leasehold.FileSystem.Call
import Leasehold.Text.Blank

/-!
# The audit trail

The audit trail of a store is a file in the directory of the store, one event on
a line, the oldest first. Events are only ever added at the end of it.
-/

namespace Leasehold.AuditTrail

/-- The directory that the trail is in. -/
def directory (home : Path) : Path :=
  home.join "events"

/-- The file that holds the trail. -/
def path (home : Path) : Path :=
  (directory home).join "events.ndjson"

/-- Makes the directory of the trail unless it is there. -/
def prepare (home : Path) : FileProgram (Except Failure Unit) := do
  let directory := directory home
  if ← (FileCall.isPresent directory).perform then return .ok ()
  else
    match ← FileSystem.makeDirectories directory with
    | .ok () => return .ok ()
    | .error cause => return .error (.user (.auditDirectory directory cause))

/-- Adds an event to the trail. -/
def append (home : Path) (event : AuditEvent) : FileProgram (Except Failure Unit) := do
  let path := path home
  match ← prepare home with
  | .error failure => return .error failure
  | .ok () =>
    match ← (FileCall.openFile path).perform with
    | .error cause => return .error (.user (.auditUnopened path cause))
    | .ok () =>
      match ← (FileCall.append path (event.line ++ "\n").toUTF8).perform with
      | .error cause => return .error (.user (.auditUnwritten path cause))
      | .ok () => return .ok ()

/-- The events of the lines of a text, blank lines aside. -/
def eventsOf? (text : String) : Option (List AuditEvent) :=
  let lines := (Text.lines text.toList).filter fun line => !line.all Text.isBlank
  lines.mapM fun line => AuditEvent.read? (String.ofList line)

/-- The events of the trail; there being no file is no event. -/
def read (home : Path) : FileProgram (Except Failure (List AuditEvent)) := do
  let path := path home
  match ← FileSystem.readText path with
  | .error .notFound => return .ok []
  | .error cause => return .error (.user (.auditUnreadable path cause))
  | .ok text =>
    match eventsOf? text with
    | some events => return .ok events
    | none => return .error (.user .auditMalformed)

end Leasehold.AuditTrail
