import Leasehold.Database
import Leasehold.Procedure

/-!
# Hosts

A host is what a command runs on: files, a clock, variables, a place to print to
and a terminal. A procedure runs on a host once it is settled that its store is a
database.
-/

namespace Leasehold

/-- What a command asks of its host. -/
inductive HostRequest where
  | file (call : FileCall)
  | log (event : LogEvent)
  | wait (request : WaitRequest)
  | clock
  | variable (name : String)
  | print (text : String)

namespace HostRequest

/-- The reply to a request. -/
@[reducible]
def Reply : HostRequest → Type
  | .file call => call.Reply
  | .log _ => Unit
  | .wait request => request.Reply
  | .clock => Instant
  | .variable _ => Option String
  | .print _ => Unit

end HostRequest

/-- A program of requests to a host. -/
abbrev HostProgram (α : Type) : Type :=
  Program HostRequest.Reply α

/-- Who a command runs for: the number of its process, its host, and the directory
that relative paths begin at. -/
structure Caller where
  pid : Pid
  hostName : String
  workingDirectory : Path
  deriving DecidableEq, Repr

namespace HostProgram

variable {α : Type}

/-- The requests of a program of file calls. -/
def ofFiles (program : FileProgram α) : HostProgram α :=
  program.expand fun call => Program.perform (HostRequest.file call)

/-- The time. -/
def clock : HostProgram Instant :=
  Program.perform HostRequest.clock

/-- The value of a variable. -/
def setting? (name : String) : HostProgram (Option String) :=
  Program.perform (HostRequest.variable name)

/-- Prints a line. -/
def printLine (line : String) : HostProgram Unit :=
  Program.perform (HostRequest.print (line ++ "\n"))

/-- Prints lines. -/
def printLines : List String → HostProgram Unit
  | [] => return ()
  | line :: lines => do
    printLine line
    printLines lines

/-- Takes note of an event. -/
def note (event : LogEvent) : HostProgram Unit :=
  Program.perform (HostRequest.log event)

/-- A store call to the database in a directory. -/
def askDatabase (pid : Pid) (directory : Path) (call : StoreCall) : HostProgram call.Reply := do
  let now ← clock
  ofFiles (Database.serve pid directory now call)

/-- One request of a procedure whose store is the database in a directory. -/
def performRequest (pid : Pid) (directory : Path) : (request : Request) → HostProgram request.Reply
  | .lock (.store call) => askDatabase pid directory call
  | .lock (.log event) => note event
  | .file call => Program.perform (HostRequest.file call)
  | .wait request => Program.perform (HostRequest.wait request)

/-- The requests of a procedure whose store is the database in a directory. -/
def onDatabase (pid : Pid) (directory : Path) (procedure : Procedure α) : HostProgram α :=
  procedure.expand (performRequest pid directory)

end HostProgram

end Leasehold
