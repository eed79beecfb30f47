import Leasehold.FileSystem.Call
import Leasehold.Lock.Heartbeat

/-!
# Procedures

A procedure works on a store and on files, takes note of what it does, and may
have to wait for an answer. It is a program of single requests, so what other
processes do between two of them is up to whoever answers.
-/

namespace Leasehold

/-- What happens while an answer is waited for. Others of the same process may
use the claimant meanwhile, so a wait hands it on. -/
inductive WaitRequest where
  /-- Puts a question: how many beats, an interval apart, there can be before its
  answer. -/
  | patience (question : String) (interval : Duration)
  /-- Whether a beat is due and there is no answer yet. -/
  | isBeatDue (claimant : Claimant)
  /-- The answer to the question. -/
  | answer (claimant : Claimant) (question : String)

namespace WaitRequest

/-- The reply to a request. -/
@[reducible]
def Reply : WaitRequest → Type
  | .patience .. => Nat
  | .isBeatDue _ => Bool × Claimant
  | .answer .. => Except Failure Bool × Claimant

end WaitRequest

/-- What a procedure asks of its surroundings. -/
inductive Request where
  | lock (request : LockRequest)
  | file (call : FileCall)
  | wait (request : WaitRequest)

namespace Request

/-- The reply to a request. -/
@[reducible]
def Reply : Request → Type
  | .lock request => request.Reply
  | .file call => call.Reply
  | .wait request => request.Reply

end Request

/-- A program of requests. -/
abbrev Procedure (α : Type) : Type :=
  Program Request.Reply α

namespace Procedure

variable {α : Type}

/-- The requests of a program of store calls and notes. -/
def ofLock (program : LockProgram α) : Procedure α :=
  program.expand fun request => Program.perform (Request.lock request)

/-- The requests of a program of file calls. -/
def ofFiles (program : FileProgram α) : Procedure α :=
  program.expand fun call => Program.perform (Request.file call)

/-- One store call. -/
def ask (call : StoreCall) : Procedure call.Reply :=
  Program.perform (Request.lock (LockRequest.store call))

/-- Takes note of an event. -/
def note (event : LogEvent) : Procedure Unit :=
  Program.perform (Request.lock (LockRequest.log event))

/-- One request of a wait. -/
def await (request : WaitRequest) : Procedure request.Reply :=
  Program.perform (Request.wait request)

/-- Beats as long as a beat is due, but not more often than given. -/
def beatWhileWaiting (heartbeat : Heartbeat) (c : Claimant) : Nat → Procedure Claimant
  | 0 => return c
  | n + 1 => do
    let (due, c) ← await (.isBeatDue c)
    if due then
      let (heartbeat, c) ← ofLock (heartbeat.beat c)
      beatWhileWaiting heartbeat c n
    else return c

/-- Asks a question and keeps the lock alive until it is answered. -/
def confirm (c : Claimant) (interval : Duration) (question : String) :
    Procedure (Except Failure Bool × Claimant) := do
  match Heartbeat.start? interval with
  | .error failure => return (.error failure, c)
  | .ok heartbeat =>
    let most ← await (.patience question interval)
    let c ← beatWhileWaiting heartbeat c most
    await (.answer c question)

end Procedure

end Leasehold
