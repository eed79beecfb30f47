import Leasehold.FileSystem.Path
import Leasehold.Text.Blank
import Leasehold.Transfer
import Leasehold.Yaml.Document
import Leasehold.Yaml.Printer

/-!
# Settings

The settings of a store are a YAML mapping in a file of its directory. A setting
that is not given has its default, and what is not a setting is ignored. The
lock has to be renewed before it expires, and the file to save to needs a name.
-/

namespace Leasehold

/-- The settings of a store. -/
structure Settings where
  /-- The seconds that the lock lives. -/
  ttl : Nat
  /-- The seconds between renewals. -/
  heartbeat : Nat
  /-- The file that is saved to and loaded from unless another is named. -/
  file : String
  /-- Whether events are recorded. -/
  recordsEvents : Bool
  deriving DecidableEq, Repr

namespace Settings

/-- The settings of a store that has none. -/
def default : Settings :=
  ⟨LockRecord.defaultTtl.seconds, LockRecord.defaultHeartbeat.seconds, "config_db.json", true⟩

/-- The first thing that is wrong with settings. -/
def flaw? (settings : Settings) : Option SettingsFlaw :=
  if settings.ttl = 0 then some .ttlZero
  else if settings.heartbeat = 0 then some .heartbeatZero
  else if settings.ttl ≤ settings.heartbeat then
    some (.heartbeatNotBelowTtl settings.heartbeat settings.ttl)
  else if Text.isAllBlank settings.file then some .fileBlank
  else none

/-- The settings, if nothing is wrong with them. -/
def validate (settings : Settings) : Except Failure Unit :=
  match settings.flaw? with
  | some flaw => .error (.user (.settingsInvalid flaw))
  | none => .ok ()

/-- The timing of the lock. -/
def timing (settings : Settings) : LockTiming :=
  ⟨.ofSeconds settings.ttl, .ofSeconds settings.heartbeat⟩

/-- The path of the file to save to, seen from a directory. -/
def filePath (settings : Settings) (base : Path) : Path :=
  base.join settings.file

/-! ## Names -/

/-- The name of the time that the lock lives. -/
def ttlName : String :=
  "lock_ttl_secs"

/-- The name of the time between renewals. -/
def heartbeatName : String :=
  "heartbeat_interval_secs"

/-- The name of the file. -/
def fileName : String :=
  "config_file"

/-- The name of the recording of events. -/
def recordsEventsName : String :=
  "record_events"

/-! ## Reading -/

/-- Whether a scalar can be something other than text: a plain one can, and so can
one after a bar with the right tag. -/
def canMean (tag : String) : Yaml.Properties → Yaml.ScalarStyle → Bool
  | _, .plain => true
  | properties, .literal => properties.tag == some tag
  | _, _ => false

/-- The number of seconds that a node stands for. -/
def seconds? (document : Yaml.Document) (node : Yaml.Node Nat) : Option Nat := do
  let (properties, style, text) ← document.scalar? node
  if canMean "tag:yaml.org,2002:int" properties style then
    Yaml.Meaning.natural? (Nat.pow 2 64) text
  else none

/-- The truth value that a node stands for. -/
def boolean? (document : Yaml.Document) (node : Yaml.Node Nat) : Option Bool := do
  let (properties, style, text) ← document.scalar? node
  if canMean "tag:yaml.org,2002:bool" properties style then Yaml.Meaning.boolean? text else none

/-- The text that a node stands for. -/
def text? (document : Yaml.Document) (node : Yaml.Node Nat) : Option String :=
  (document.scalar? node).map fun scalar => scalar.2.2

/-- Members by the text of their keys. -/
abbrev Members :=
  List (String × Yaml.Node Nat)

/-- Members whose keys are all text. -/
def keyed? (document : Yaml.Document) (members : List (Yaml.Node Nat × Yaml.Node Nat)) :
    Option Members :=
  members.mapM fun (key, value) => (text? document key).map fun name => (name, value)

/-- A setting, which may be given once. -/
def member? {α : Type} (members : Members) (name : String) (preset : α)
    (decode : Yaml.Node Nat → Option α) : Option α :=
  match members.filter fun member => member.1 == name with
  | [] => some preset
  | [(_, node)] => decode node
  | _ => none

/-- The settings that members stand for. -/
def ofMembers? (document : Yaml.Document) (members : Members) : Option Settings := do
  return {
    ttl := ← member? members ttlName default.ttl (seconds? document)
    heartbeat := ← member? members heartbeatName default.heartbeat (seconds? document)
    file := ← member? members fileName default.file (text? document)
    recordsEvents :=
      ← member? members recordsEventsName default.recordsEvents (boolean? document) }

/-- The settings of a document: of a mapping, or of a document that is empty. -/
def ofDocument? (document : Yaml.Document) : Option Settings :=
  match document.root with
  | none => some default
  | some (.scalar _ .plain "") => some default
  | some (.mapping _ members) => (keyed? document members).bind (ofMembers? document)
  | some _ => none

/-- The settings of a text, which have to be valid. -/
def read (text : String) : Except Failure Settings :=
  if Text.isAllBlank text then .ok default
  else
    match (Yaml.Document.read? text).bind ofDocument? with
    | none => .error (.user .settingsMalformed)
    | some settings => settings.validate.map fun _ => settings

/-- The settings in a file; there being no file is the default. -/
def load (path : Path) : FileProgram (Except Failure Settings) := do
  match ← FileSystem.readText path with
  | .ok text => return read text
  | .error .notFound => return .ok default
  | .error cause => return .error (.user (.settingsUnreadable path cause))

/-! ## Writing -/

/-- A member of the mapping. -/
def memberLine (name : String) (value : List Char) : String :=
  name ++ ": " ++ String.ofList value

/-- The text of settings. -/
def write (settings : Settings) : String :=
  memberLine ttlName (Text.decimal settings.ttl ++ ['\n']) ++
    memberLine heartbeatName (Text.decimal settings.heartbeat ++ ['\n']) ++
    memberLine fileName (Yaml.Printer.line settings.file) ++
    memberLine recordsEventsName
      (if settings.recordsEvents then ['t', 'r', 'u', 'e', '\n']
      else ['f', 'a', 'l', 's', 'e', '\n'])

end Settings

end Leasehold
