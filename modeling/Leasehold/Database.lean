import Leasehold.FileSystem.Replace
import Leasehold.Keyspace.Codec
import Leasehold.Store
import Leasehold.Text.Blank

/-!
# Databases

A database is a store that is kept in a directory, so that processes can share
it. A store call locks the database, reads the keyspace, does what is asked, and
writes the keyspace back if it may have changed. The lock is one on an open
file, which goes with the process that has it. Whatever fails, the database
holds what it held before.
-/

namespace Leasehold.Database

/-- The file that the keyspace is in. -/
def keyspacePath (directory : Path) : Path :=
  directory.join "db.json"

/-- The file whose lock keeps other processes out. -/
def guardPath (directory : Path) : Path :=
  directory.join "db.lock"

/-- Makes the directory of a database unless it is there. -/
def prepare (directory : Path) : FileProgram (Except Failure Unit) := do
  match ← FileSystem.makeDirectories directory with
  | .ok () => return .ok ()
  | .error cause => return .error (.storeUnavailable (.directory directory cause))

/-- Reads the keyspace; there being no file, or a blank one, is no record. -/
def load (directory : Path) : FileProgram (Except Failure Keyspace) := do
  let path := keyspacePath directory
  match ← FileSystem.readText path with
  | .error .notFound => return .ok .empty
  | .error cause => return .error (.storeUnavailable (.reading path cause))
  | .ok text =>
    if Text.isAllBlank text then return .ok .empty
    else
      match Keyspace.read? text with
      | some keyspace => return .ok keyspace
      | none => return .error (.storeUnavailable (.malformed path))

/-- Writes the keyspace. -/
def persist (pid : Pid) (directory : Path) (keyspace : Keyspace) :
    FileProgram (Except Failure Unit) := do
  let path := keyspacePath directory
  match ← FileSystem.replaceFile pid.toNat path keyspace.write.toUTF8 with
  | .ok () => return .ok ()
  | .error cause => return .error (.storeUnavailable (.writing path cause))

/-- Does what a store call asks while the database is locked. -/
def transact (pid : Pid) (directory : Path) (now : Instant) (call : StoreCall) :
    FileProgram call.Reply := do
  match ← load directory with
  | .error failure => return .error failure
  | .ok keyspace =>
    let (answer, keyspace) := keyspace.serve now call
    if keyspace.dirty then
      match ← persist pid directory keyspace with
      | .error failure => return .error failure
      | .ok () => return .ok answer
    else return .ok answer

/-- A store call to the database. An unlocking that fails does not matter, for
the lock goes when the file is closed. -/
def serve (pid : Pid) (directory : Path) (now : Instant) (call : StoreCall) :
    FileProgram call.Reply := do
  let path := guardPath directory
  match ← (FileCall.openFile path).perform with
  | .error cause => return .error (.storeUnavailable (.opening path cause))
  | .ok () =>
    match ← (FileCall.lock path).perform with
    | .error cause => return .error (.storeUnavailable (.locking path cause))
    | .ok () =>
      let reply ← transact pid directory now call
      let _ ← (FileCall.unlock path).perform
      return reply

end Leasehold.Database
