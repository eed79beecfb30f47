import Leasehold.Host
import Leasehold.Lock.Status
import Leasehold.Text.Split

/-!
# Commands on single records

A record is named by its table and its own name, neither of which may be empty,
and its fields are given as pairs with an equals sign between name and value.
These commands do not need the lock.
-/

namespace Leasehold.RecordCommand

/-- The key of a record, if its names will do. -/
def recordKey (table record : String) : Except Failure String :=
  if table = "" ∨ record = "" then .error (.user .nameEmpty)
  else if table.toList.contains Key.separator then .error (.user (.tableSeparated table))
  else .ok (Key.compose table record)

/-- The name and the value in a pair. -/
def readPair (pair : String) : Except Failure (String × String) :=
  match Text.splitFirst? '=' pair.toList with
  | none => .error (.user (.pairWithoutValue pair))
  | some ([], _) => .error (.user (.pairWithoutField pair))
  | some (name, value) => .ok (String.ofList name, String.ofList value)

/-- The fields in pairs, the last one of a name winning. -/
def readPairs (pairs : List String) : Except Failure Fields :=
  (pairs.mapM readPair).map TextMap.ofList

/-- What a command on a record is about: its key and the fields to set. -/
def readAssignment (table record : String) (pairs : List String) :
    Except Failure (String × Fields) := do
  let key ← recordKey table record
  let fields ← readPairs pairs
  return (key, fields)

/-- Sets fields of a record. -/
def set (caller : Caller) (home : Path) (table record : String) (pairs : List String) :
    HostProgram (Except Failure Unit) := do
  match readAssignment table record pairs with
  | .error failure => return .error failure
  | .ok (key, fields) =>
    match ← HostProgram.ofFiles (Database.prepare home) with
    | .error failure => return .error failure
    | .ok () =>
      match ← HostProgram.askDatabase caller.pid home (.merge key fields) with
      | .error failure => return .error failure
      | .ok () =>
        HostProgram.printLine ("Set " ++ toString fields.size ++ " field(s) on " ++ key)
        return .ok ()

/-- A record as it is shown. -/
def recordLines (key : String) (fields : Fields) (lifetime : Lifetime) : List String :=
  (key ++ " (" ++ lifetime.text ++ ")") ::
    fields.toList.map fun (name, value) => "  " ++ name ++ ": " ++ value

/-- Shows a record. -/
def get (caller : Caller) (home : Path) (table record : String) :
    HostProgram (Except Failure Unit) := do
  match recordKey table record with
  | .error failure => return .error failure
  | .ok key =>
    match ← HostProgram.ofFiles (Database.prepare home) with
    | .error failure => return .error failure
    | .ok () =>
      match ← HostProgram.askDatabase caller.pid home (.fetch key) with
      | .error failure => return .error failure
      | .ok none => return .error (.user (.recordMissing key))
      | .ok (some fields) =>
        match ← HostProgram.askDatabase caller.pid home (.lifetime key) with
        | .error failure => return .error failure
        | .ok lifetime =>
          HostProgram.printLines (recordLines key fields lifetime)
          return .ok ()

/-- Shows the status of the lock. -/
def showLock (caller : Caller) (home : Path) : HostProgram (Except Failure Unit) := do
  match ← HostProgram.ofFiles (Database.prepare home) with
  | .error failure => return .error failure
  | .ok () =>
    let status := Procedure.ofLock (LockStatus.find LockRecord.key)
    match ← HostProgram.onDatabase caller.pid home status with
    | .error failure => return .error failure
    | .ok status =>
      HostProgram.printLine status.text
      return .ok ()

end Leasehold.RecordCommand
