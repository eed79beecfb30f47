import Leasehold.FileSystem.Tree
import Leasehold.Host
import Leasehold.Prompt

/-!
# Machines

A machine is a host that is a value: a tree of files, a clock that stands still
while a command runs, variables, a terminal, and all that was printed and noted.
On it a command is a function.
-/

namespace Leasehold

/-- A host as a value. -/
structure Machine where
  tree : Tree
  clock : Instant
  environment : List (String × String)
  terminal : Terminal
  printed : String
  noted : List LogEvent

namespace Machine

/-- Answers a request of a wait. Nothing is waited for: the answer is there. -/
def serveWait (machine : Machine) : (request : WaitRequest) → request.Reply × Machine
  | .patience .. => ((0 : Nat), machine)
  | .isBeatDue claimant => ((false, claimant), machine)
  | .answer claimant question =>
    let (answer, terminal) := machine.terminal.ask question
    ((answer, claimant), { machine with terminal := terminal })

/-- Answers a file call. -/
def serveFile (machine : Machine) (call : FileCall) : call.Reply × Machine :=
  let (reply, tree) := machine.tree.serve call
  (reply, { machine with tree := tree })

/-- Answers a request. -/
def serve (machine : Machine) : (request : HostRequest) → request.Reply × Machine
  | .file call => machine.serveFile call
  | .log event => ((), { machine with noted := machine.noted ++ [event] })
  | .wait request => machine.serveWait request
  | .clock => (machine.clock, machine)
  | .variable name => (machine.environment.lookup name, machine)
  | .print text => ((), { machine with printed := machine.printed ++ text })

/-- Runs a program. -/
def run {α : Type} (machine : Machine) (program : HostProgram α) : α × Machine :=
  program.run (fun request machine => machine.serve request) machine

end Machine

/-- Runs a program of file calls on a tree. -/
def Tree.run {α : Type} (tree : Tree) (program : FileProgram α) : α × Tree :=
  program.run (fun call tree => tree.serve call) tree

end Leasehold
