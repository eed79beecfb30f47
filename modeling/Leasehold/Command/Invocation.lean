import Leasehold.Arguments
import Leasehold.FileSystem.Path

/-!
# Invocations

What can be asked for on the command line: saving and loading, setting and
showing a record, and showing the lock. The directory of the store and the wish
to hear more may be given with any command, the directory given last winning.
-/

namespace Leasehold

/-- Something to be done. -/
inductive Command where
  | save (file : Option Path) (yes : Bool)
  | load (file : Option Path) (yes : Bool)
  | set (table record : String) (pairs : List String)
  | get (table record : String)
  | showLock
  deriving DecidableEq, Repr

/-- Something to be done, and where. -/
structure Invocation where
  home : Option Path
  verbose : Bool
  command : Command
  deriving DecidableEq, Repr

namespace Invocation

/-- The flag for hearing more. -/
def verboseFlag : Flag :=
  ⟨"verbose", 'v'⟩

/-- The flag for not being asked. -/
def yesFlag : Flag :=
  ⟨"yes", 'y'⟩

/-- The option for the directory of the store. -/
def homeOption : ValueOption :=
  ⟨"db", .nonempty⟩

/-- A file that need not be named. -/
def filePositional : Positional :=
  ⟨"file", .nonempty, false, false⟩

/-- The name of a table. -/
def tablePositional : Positional :=
  ⟨"table", .any, true, false⟩

/-- The name of a record. -/
def recordPositional : Positional :=
  ⟨"record", .any, true, false⟩

/-- Fields with their values. -/
def pairsPositional : Positional :=
  ⟨"pairs", .any, true, true⟩

/-- A command with what every command takes. -/
def commandGrammar (name : String) (flags : List Flag) (positionals : List Positional)
    (subcommands : List Grammar) : Grammar :=
  ⟨name, flags ++ [verboseFlag], [homeOption], positionals, subcommands⟩

/-- All that can be asked for. -/
def grammar : Grammar :=
  commandGrammar "" [] []
    [commandGrammar "save" [yesFlag] [filePositional] [],
      commandGrammar "load" [yesFlag] [filePositional] [],
      commandGrammar "set" [] [tablePositional, recordPositional, pairsPositional] [],
      commandGrammar "get" [] [tablePositional, recordPositional] [],
      commandGrammar "lock" [] [] [commandGrammar "show" [] [] []]]

/-- The command that was given. -/
def commandOf? : List Given → Option Command
  | [_, given] =>
    let first (positional : Positional) := (given.valuesOf positional.name).head?
    let yes := given.flags.contains yesFlag.name
    match given.command with
    | "save" => some (.save (first filePositional) yes)
    | "load" => some (.load (first filePositional) yes)
    | "set" => do
      return .set (← first tablePositional) (← first recordPositional)
        (given.valuesOf pairsPositional.name)
    | "get" => do return .get (← first tablePositional) (← first recordPositional)
    | _ => none
  | [_, _, given] => if given.command = "show" then some .showLock else none
  | _ => none

/-- What was asked for by the commands that were given. -/
def ofGiven? (levels : List Given) : Option Invocation := do
  let command ← commandOf? levels
  return {
    home := (levels.flatMap fun given => given.valuesOf homeOption.name).getLast?
    verbose := levels.any fun given => given.flags.contains verboseFlag.name
    command := command }

/-- What is asked for in arguments. -/
def read (arguments : List String) : Except UsageError Invocation := do
  let levels ← grammar.read arguments
  match ofGiven? levels with
  | some invocation => return invocation
  | none => throw .missingSubcommand

end Invocation

end Leasehold
