import Leasehold.Command.Invocation
import Leasehold.Command.Record
import Leasehold.Command.Transfer

/-!
# Running commands

A command works on the store whose home is resolved first. How it ends is its
exit code, and the text of its failure if it failed.
-/

namespace Leasehold

namespace Command

/-- Does what a command says on the store in a directory. -/
def run (caller : Caller) (home : Path) : Command → HostProgram (Except Failure Unit)
  | .save file yes => TransferCommand.save caller home file !yes
  | .load file yes => TransferCommand.load caller home file !yes
  | .set table record pairs => RecordCommand.set caller home table record pairs
  | .get table record => RecordCommand.get caller home table record
  | .showLock => RecordCommand.showLock caller home

end Command

/-- Does what is asked for. -/
def Invocation.run (caller : Caller) (invocation : Invocation) :
    HostProgram (Except Failure Unit) := do
  let setting ← HostProgram.setting? Home.variableName
  let home := Home.resolve caller.workingDirectory invocation.home setting
  invocation.command.run caller home

/-- The exit code of a command. -/
def exitCodeOf : Except Failure Unit → Nat
  | .ok () => ExitCode.success
  | .error failure => failure.exitCode

/-- The line that tells of a failure. -/
def Failure.errorLine : Failure → String
  | .aborted => Failure.aborted.message
  | failure => "Error: " ++ failure.message

end Leasehold
