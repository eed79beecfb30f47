import Leasehold.Command.Run
import Leasehold.LogLine
import Leasehold.Prompt
import Std.Time.DateTime.Timestamp

/-!
# The command line

Runs a command on the files, the clock, the variables and the terminal of the
system. All decisions are made by the programs that are run here; this module
only answers their requests.
-/

namespace Leasehold.Console

/-- A question that was put on the terminal, and how long to wait between beats. -/
structure OpenQuestion where
  answer : Task (Except IO.Error (Except Failure Bool))
  interval : Duration

/-- What is open while a command runs. -/
structure State where
  verbose : Bool
  files : List (Path × IO.FS.Handle)
  question : Option OpenQuestion

/-- A command that is running. -/
abbrev Running (α : Type) :=
  StateT State IO α

/-! ## Files -/

/-- Why the system did not do what it was asked to. -/
def failureOf : IO.Error → IoFailure
  | .noFileOrDirectory .. => .notFound
  | .alreadyExists .. => .exists
  | .inappropriateType _ 20 _ => .notDirectory
  | .inappropriateType _ 21 _ => .isDirectory
  | failure => .other (toString failure)

/-- What came of asking the system. -/
def attempt {α : Type} (action : IO α) : Running (Except IoFailure α) := do
  match ← (action.toBaseIO : BaseIO (Except IO.Error α)) with
  | .ok result => return .ok result
  | .error failure => return .error (failureOf failure)

/-- Why a file cannot be read from, if it cannot. -/
def obstacle? (path : Path) : Running (Option IoFailure) := do
  let read : IO ByteArray := do (← IO.FS.Handle.mk path .read).read 1
  match ← attempt read with
  | .ok _ => return none
  | .error failure => return some failure

/-- Opens a file and keeps it open. -/
def openFile (path : Path) (mode : IO.FS.Mode) : Running (Except IoFailure Unit) := do
  match ← attempt (IO.FS.Handle.mk path mode) with
  | .error failure => return .error failure
  | .ok file =>
    modify fun state => { state with files := (path, file) :: state.files }
    return .ok ()

/-- Does something with an open file. -/
def withFile (path : Path) (action : IO.FS.Handle → IO Unit) :
    Running (Except IoFailure Unit) := do
  match (← get).files.lookup path with
  | none => return .error .notFound
  | some file => attempt (action file)

/-- Closes a file. -/
def closeFile (path : Path) : Running Unit :=
  modify fun state => { state with files := state.files.filter fun entry => entry.1 != path }

/-- Does something with an open file for the last time. -/
def withFileAtLast (path : Path) (action : IO.FS.Handle → IO Unit) :
    Running (Except IoFailure Unit) := do
  let result ← withFile path action
  closeFile path
  return result

/-- Puts a content into an open file. -/
def putContent (content : ByteArray) (file : IO.FS.Handle) : IO Unit := do
  file.write content
  file.flush

/-- Answers a file call. -/
def serveFile : (call : FileCall) → Running call.Reply
  | .isPresent path => do return (← obstacle? path) != some .notFound
  | .isFile path => do return (← obstacle? path) == none
  | .isDirectory path => do return (← obstacle? path) == some .isDirectory
  | .makeDirectory path => attempt (IO.FS.createDir path)
  | .read path => attempt (IO.FS.readBinFile path)
  | .create path => openFile path .write
  | .openFile path => openFile path .append
  | .lock path => withFile path fun file => file.lock true
  | .unlock path => withFileAtLast path fun file => file.unlock
  | .write path content => withFileAtLast path (putContent content)
  | .append path content => withFileAtLast path (putContent content)
  | .rename source target => attempt (IO.FS.rename source target)
  | .remove path => attempt (IO.FS.removeFile path)

/-! ## Questions -/

/-- Asks a question on the terminal until it is answered. -/
partial def ask (question : String) : IO (Except Failure Bool) := do
  let terminal ← IO.getStderr
  terminal.putStr (question ++ Answer.hint)
  terminal.flush
  let line ← (← IO.getStdin).getLine
  if line.isEmpty then
    terminal.putStrLn ""
    return .ok false
  else
    match Answer.ofLine line with
    | .yes => return .ok true
    | .no => return .ok false
    | .unclear =>
      terminal.putStr Answer.complaint
      ask question

/-- How many beats there can be at the very most. -/
def mostBeats : Nat :=
  Nat.pow 2 32

/-- Waits until a question is answered or a beat is due; whether a beat is due. -/
def awaitBeat (question : OpenQuestion) : Nat → IO Bool
  | 0 => return !(← IO.hasFinished question.answer)
  | n + 1 => do
    if ← IO.hasFinished question.answer then return false
    else
      IO.sleep 10
      awaitBeat question n

/-- What an answer came to. -/
def heard : Except IO.Error (Except Failure Bool) → Except Failure Bool
  | .ok answer => answer
  | .error failure => .error (.user (.confirmationUnread (failureOf failure)))

/-- Answers a request of a wait. -/
def serveWait : (request : WaitRequest) → Running request.Reply
  | .patience question interval => do
    let answer ← IO.asTask (ask question)
    modify fun state => { state with question := some ⟨answer, interval⟩ }
    return mostBeats
  | .isBeatDue claimant => do
    match (← get).question with
    | none => return (false, claimant)
    | some question => return (← awaitBeat question (question.interval.nanos / 10000000), claimant)
  | .answer claimant _ => do
    match (← get).question with
    | none => return (.ok false, claimant)
    | some question =>
      modify fun state => { state with question := none }
      return (heard (← IO.wait question.answer), claimant)

/-! ## Requests -/

/-- The time. -/
def clock : IO Instant := do
  let time ← Std.Time.Timestamp.now
  return .ofSinceEpoch time.toNanosecondsSinceUnixEpoch.val

/-- Writes an event to the terminal if it is worth it. -/
def note (event : LogEvent) : Running Unit := do
  if (← get).verbose || event.isWarning then
    (← IO.getStderr).putStrLn event.line
  else return ()

/-- Answers a request. -/
def serve : (request : HostRequest) → Running request.Reply
  | .file call => serveFile call
  | .log event => note event
  | .wait request => serveWait request
  | .clock => clock
  | .variable name => IO.getEnv name
  | .print text => do (← IO.getStdout).putStr text

/-- The first line of a file. -/
def firstLine (path : Path) : IO String := do
  let file ← IO.FS.Handle.mk path .read
  return Text.trimmed (← file.getLine)

/-- The number of this process, which is the first word of its status. -/
def pid : IO Pid := do
  let status ← firstLine "/proc/self/stat"
  let digits := status.toList.takeWhile Char.isDigit
  return UInt32.ofNat ((Text.readDecimal? digits).getD 0)

/-- The name of the host. -/
def hostName : IO String := do
  match ← (firstLine "/proc/sys/kernel/hostname").toBaseIO with
  | .ok name => return name
  | .error _ => return "unknown"

/-- Who runs the command. -/
def caller : IO Caller := do
  return ⟨← pid, ← hostName, (← IO.currentDir).toString⟩

/-- Runs what was asked for and gives the exit code. -/
def run (invocation : Invocation) : IO Nat := do
  let program := invocation.run (← caller)
  let (result, _) ← (program.interpret serve).run ⟨invocation.verbose, [], none⟩
  match result with
  | .ok () => return exitCodeOf result
  | .error failure =>
    IO.eprintln failure.errorLine
    return exitCodeOf result

end Leasehold.Console

/-- Runs the command that the arguments ask for. -/
def main (arguments : List String) : IO UInt32 := do
  match Leasehold.Invocation.read arguments with
  | .ok invocation => return (← Leasehold.Console.run invocation).toUInt32
  | .error failure =>
    IO.eprintln failure.message
    return failure.exitCode.toUInt32
