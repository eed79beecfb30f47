import Leasehold.Failure
import Leasehold.Keyspace.Codec

/-!
# Audit events

An audit event says what was done to the configuration, when, by whom, and by
which process; its details are any JSON value. It is written as a JSON object on
one line and read from any JSON text of that shape.
-/

namespace Leasehold

/-- What was done. -/
inductive AuditAction where
  | save
  | load
  | abort
  deriving DecidableEq, Repr

namespace AuditAction

/-- The word for an action. -/
def text : AuditAction → String
  | .save => "save"
  | .load => "load"
  | .abort => "abort"

/-- The action that a word stands for. -/
def ofText? : String → Option AuditAction
  | "save" => some .save
  | "load" => some .load
  | "abort" => some .abort
  | _ => none

@[simp]
theorem ofText?_text (action : AuditAction) : ofText? action.text = some action := by
  cases action <;> rfl

/-- The action that a JSON text stands for: its word, or an object with the word
for a key and nothing for a value. -/
def ofRaw? : Json.Raw → Option AuditAction
  | .text units => units.text?.bind ofText?
  | .object [(key, .null)] => key.text?.bind ofText?
  | _ => none

end AuditAction

/-- Something that was done. -/
structure AuditEvent where
  time : Instant
  action : AuditAction
  actor : String
  pid : Pid
  details : Json
  deriving Repr

namespace AuditEvent

/-- An event as a JSON object. -/
def toJson (event : AuditEvent) : Json :=
  .object
    [("ts", event.time.toJson),
      ("action", .text event.action.text),
      ("actor", .text event.actor),
      ("pid", .ofNat event.pid.toNat),
      ("details", event.details)]

/-- An event on one line. -/
def line (event : AuditEvent) : String :=
  event.toJson.line

/-- The number of a process from a JSON text. -/
def pidOfRaw? (raw : Json.Raw) : Option Pid := do
  let n ← raw.natural?
  if n < UInt32.size then some (UInt32.ofNat n) else none

/-- The event of a JSON text. -/
def read? (text : String) : Option AuditEvent := do
  let raw ← Json.Raw.read? text.toList
  match ← raw.fields? ["ts", "action", "actor", "pid", "details"] with
  | [some time, some action, some actor, some pid, some details] =>
    return {
      time := ← Instant.ofRaw? time
      action := ← AuditAction.ofRaw? action
      actor := ← actor.text?
      pid := ← pidOfRaw? pid
      details := ← Json.ofRaw? (Json.depthLimit - 1) details }
  | _ => none

end AuditEvent

end Leasehold
