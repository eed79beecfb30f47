import Leasehold.Text.Split

/-!
# Command-line arguments

A command has flags, options with a value, positional arguments and subcommands.
Flags and options may stand anywhere among the positional arguments, each of them
once; two hyphens end them. The name of a subcommand hands the arguments after it
over. A value is looked at no sooner than the next argument, so of two errors
that in the later argument may come first.
-/

namespace Leasehold

/-- Why arguments were turned down, or what was asked for instead of a command. -/
inductive UsageError where
  | helpAsked
  | versionAsked
  | helpDue
  | missingSubcommand
  | invalidSubcommand
  | unknownArgument
  | invalidValue
  | tooManyValues
  | repeatedArgument
  | missingArgument
  deriving DecidableEq, Repr

/-- The text of an error. -/
def UsageError.message : UsageError → String
  | .helpAsked => "usage: [--db DIRECTORY] [-v] (save | load | set | get | lock show) ..."
  | .versionAsked => "version 0.1.0"
  | .helpDue => "a command is needed"
  | .missingSubcommand => "a subcommand is needed"
  | .invalidSubcommand => "there is no such subcommand"
  | .unknownArgument => "there is an argument that is not known"
  | .invalidValue => "there is a value that is missing or will not do"
  | .tooManyValues => "there is a value for a flag"
  | .repeatedArgument => "there is an argument that is given twice"
  | .missingArgument => "there is an argument missing"

/-- The exit code for arguments that were turned down. -/
def UsageError.exitCode : UsageError → Nat
  | .helpAsked => 0
  | .versionAsked => 0
  | _ => 2

/-- A flag: its name, and its letter. -/
structure Flag where
  name : String
  letter : Char
  deriving DecidableEq, Repr

/-- The flag that asks for help. -/
def Flag.help : Flag :=
  ⟨"help", 'h'⟩

/-- The flag that asks for the version. -/
def Flag.version : Flag :=
  ⟨"version", 'V'⟩

/-- What a value has to be like. -/
inductive ValueRule where
  | any
  | nonempty
  deriving DecidableEq, Repr

/-- Whether a value is as it has to be. -/
def ValueRule.admits : ValueRule → String → Bool
  | .any, _ => true
  | .nonempty, value => value != ""

/-- An option that takes a value. -/
structure ValueOption where
  name : String
  rule : ValueRule
  deriving DecidableEq, Repr

/-- A positional argument. The last one of a command may take many values. -/
structure Positional where
  name : String
  rule : ValueRule
  required : Bool
  many : Bool
  deriving DecidableEq, Repr

/-- What a command takes. -/
inductive Grammar where
  | mk (name : String) (flags : List Flag) (options : List ValueOption)
      (positionals : List Positional) (subcommands : List Grammar)
  deriving Repr

namespace Grammar

/-- The name of a command. -/
def name : Grammar → String
  | ⟨name, _, _, _, _⟩ => name

/-- The flags of a command. -/
def flags : Grammar → List Flag
  | ⟨_, flags, _, _, _⟩ => flags ++ [.help, .version]

/-- The options of a command. -/
def options : Grammar → List ValueOption
  | ⟨_, _, options, _, _⟩ => options

/-- The positional arguments of a command. -/
def positionals : Grammar → List Positional
  | ⟨_, _, _, positionals, _⟩ => positionals

/-- The subcommands of a command. -/
def subcommands : Grammar → List Grammar
  | ⟨_, _, _, _, subcommands⟩ => subcommands

/-- The subcommand of a name. -/
def subcommand? (grammar : Grammar) (name : String) : Option Grammar :=
  grammar.subcommands.find? fun sub => sub.name == name

/-- The name of the subcommand that shows help on others. -/
def helpName : String :=
  "help"

/-- Whether a command has a subcommand that shows help. -/
def hasHelp (grammar : Grammar) : Bool :=
  !grammar.subcommands.isEmpty

/-- Shows help on the subcommand that names lead to. -/
def showHelp (grammar : Grammar) : List String → UsageError
  | [] => .helpAsked
  | name :: names =>
    match grammar.subcommand? name with
    | some sub => sub.showHelp names
    | none =>
      if grammar.hasHelp && name == helpName && names.isEmpty then .helpAsked
      else .invalidSubcommand

end Grammar

/-- The arguments that one command was given: its flags, and the values of options
and positional arguments. -/
structure Given where
  command : String
  flags : List String
  values : List (String × List String)
  deriving DecidableEq, Repr

namespace Given

/-- The values of an option or a positional argument. -/
def valuesOf (given : Given) (name : String) : List String :=
  (given.values.filter fun entry => entry.1 == name).flatMap Prod.snd

end Given

/-- Values that were not looked at yet. -/
inductive Pending where
  | option (option : ValueOption) (value : Option String)
  | positional (positional : Positional) (values : List String)
  deriving Repr

/-- A command whose arguments are being read. -/
structure Reading where
  grammar : Grammar
  given : Given
  /-- The positional arguments that can still be given. -/
  expected : List Positional
  pending : Option Pending
  /-- Whether two hyphens have ended the flags and options. -/
  ended : Bool

namespace Reading

/-- A command that was given nothing yet. -/
def start (grammar : Grammar) : Reading :=
  ⟨grammar, ⟨grammar.name, [], []⟩, grammar.positionals, none, false⟩

/-- Looks at the values that were not looked at yet. -/
def settle (reading : Reading) : Except UsageError Reading :=
  let settled := { reading with pending := none }
  let keep (name : String) (values : List String) : Reading :=
    { settled with
      given := { reading.given with values := reading.given.values ++ [(name, values)] } }
  match reading.pending with
  | none => .ok settled
  | some (.option _ none) => .error .invalidValue
  | some (.option option (some value)) =>
    if (reading.given.values.lookup option.name).isSome then .error .repeatedArgument
    else if option.rule.admits value then .ok (keep option.name [value])
    else .error .invalidValue
  | some (.positional positional values) =>
    if values.all positional.rule.admits then .ok (keep positional.name values)
    else .error .invalidValue

/-- Takes a flag. -/
def takeFlag (reading : Reading) (flag : Flag) : Except UsageError Reading := do
  let reading ← reading.settle
  if flag = .help then throw .helpAsked
  else if flag = .version then throw .versionAsked
  else if reading.given.flags.contains flag.name then throw .repeatedArgument
  else
    return { reading with
      given := { reading.given with flags := reading.given.flags ++ [flag.name] } }

/-- Takes the flags of letters. -/
def takeLetters (reading : Reading) : List Char → Except UsageError Reading
  | [] => .ok reading
  | letter :: letters =>
    match reading.grammar.flags.find? fun flag => flag.letter == letter with
    | some flag => do (← reading.takeFlag flag).takeLetters letters
    | none => .error .unknownArgument

/-- Takes a flag or an option by its name, with the value given with it. -/
def takeNamed (reading : Reading) (name : String) (value : Option String) :
    Except UsageError Reading :=
  match reading.grammar.flags.find? fun flag => flag.name == name with
  | some flag => if value.isSome then .error .tooManyValues else reading.takeFlag flag
  | none =>
    match reading.grammar.options.find? fun option => option.name == name with
    | some option => do
      let reading ← reading.settle
      let reading := { reading with pending := some (.option option value) }
      if value.isSome then reading.settle else return reading
    | none => .error .unknownArgument

/-- Takes the first value in the next position. -/
def advance (reading : Reading) (positional : Positional) (later : List Positional)
    (value : String) : Except UsageError Reading := do
  let reading ← reading.settle
  return { reading with
    pending := some (.positional positional [value])
    expected := if positional.many then reading.expected else later }

/-- Takes a value, for an option that waits for one or in the next position. -/
def takeValue (reading : Reading) (value : String) : Except UsageError Reading :=
  match reading.expected with
  | [] =>
    .error (if reading.grammar.subcommands.isEmpty then .unknownArgument
      else if reading.ended && ((reading.grammar.subcommand? value).isSome ||
        (reading.grammar.hasHelp && value == Grammar.helpName)) then .unknownArgument
      else .invalidSubcommand)
  | positional :: later =>
    match reading.pending with
    | some (.positional current values) =>
      if positional.many && current == positional then
        .ok { reading with pending := some (.positional positional (values ++ [value])) }
      else reading.advance positional later value
    | _ => reading.advance positional later value

/-- Takes an argument that is not the name of a subcommand. -/
def take (reading : Reading) (argument : String) : Except UsageError Reading :=
  if reading.ended then reading.takeValue argument
  else
    match argument.toList with
    | ['-', '-'] => .ok { reading with ended := true }
    | '-' :: '-' :: rest =>
      match Text.splitFirst? '=' rest with
      | some (name, value) => reading.takeNamed (String.ofList name) (some (String.ofList value))
      | none => reading.takeNamed (String.ofList rest) none
    | '-' :: letter :: letters => reading.takeLetters (letter :: letters)
    | _ =>
      match reading.pending with
      | some (.option option none) =>
        .ok { reading with pending := some (.option option (some argument)) }
      | _ => reading.takeValue argument

/-- Whether the next argument may be the name of a subcommand. -/
def allowsSubcommand (reading : Reading) : Bool :=
  !reading.ended &&
    match reading.pending with
    | some (.option _ none) => false
    | some (.positional positional _) => !positional.many
    | _ => true

/-- Whether a required positional argument is missing. -/
def lacksArgument (reading : Reading) : Bool :=
  reading.grammar.positionals.any fun positional =>
    positional.required && (reading.given.values.lookup positional.name).isNone

/-- What a command was given once all arguments were read, the commands below it
after it. -/
def finish (reading : Reading) (below : List Given) : Except UsageError (List Given) := do
  let reading ← reading.settle
  if below.isEmpty && !reading.grammar.subcommands.isEmpty then
    if reading.given.flags.isEmpty && reading.given.values.isEmpty then throw .helpDue
    else throw .missingSubcommand
  else if reading.lacksArgument then throw .missingArgument
  else return reading.given :: below

/-- Reads arguments. -/
def read (reading : Reading) : List String → Except UsageError (List Given)
  | [] => reading.finish []
  | argument :: rest =>
    if reading.allowsSubcommand then
      match reading.grammar.subcommand? argument with
      | some sub => do
        let below ← (start sub).read rest
        reading.finish below
      | none =>
        if reading.grammar.hasHelp && argument == Grammar.helpName then
          .error (reading.grammar.showHelp rest)
        else do (← reading.take argument).read rest
    else do (← reading.take argument).read rest

end Reading

/-- What a command and the subcommands of it were given in arguments. -/
def Grammar.read (grammar : Grammar) (arguments : List String) :
    Except UsageError (List Given) :=
  (Reading.start grammar).read arguments

end Leasehold
