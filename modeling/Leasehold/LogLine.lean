import Leasehold.Json.Printer
import Leasehold.Log

/-!
# Log lines

An event is written to a log as a JSON object on one line: its level, its message
and its fields.
-/

namespace Leasehold

/-- The word for a level. -/
def LogLevel.text : LogLevel → String
  | .debug => "DEBUG"
  | .info => "INFO"
  | .warn => "WARN"

/-- The value of a field as JSON. -/
def LogValue.toJson : LogValue → Json
  | .natural n => .ofNat n
  | .real x => .number (.float x)
  | .text s => .text s

namespace LogEvent

/-- An event as a JSON object. -/
def toJson (event : LogEvent) : Json :=
  .object
    [("level", .text event.level.text),
      ("message", .text event.message),
      ("fields", .object (event.fields.map fun (name, value) => (name, value.toJson)))]

/-- An event on one line. -/
def line (event : LogEvent) : String :=
  event.toJson.line

/-- Whether an event is worth telling to someone who did not ask for more. -/
def isWarning (event : LogEvent) : Bool :=
  event.level = .warn

end LogEvent

end Leasehold
