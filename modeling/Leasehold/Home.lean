import Leasehold.FileSystem.Path

/-!
# The home of a store

A store lives in a directory with its settings and its audit trail. The directory
is the one that was asked for, or else the one that the environment names, or
else the usual one, seen from the working directory.
-/

namespace Leasehold.Home

/-- The directory that is used unless another is named. -/
def usual : Path :=
  ".cfgdb"

/-- The environment variable that names a directory. -/
def variableName : String :=
  "CFGLOCK_DB_DIR"

/-- The directory that is named: by the one who asks or, unless it is empty, by
the environment. -/
def named (asked setting : Option Path) : Path :=
  match asked, setting with
  | some directory, _ => directory
  | none, some directory => if directory = "" then usual else directory
  | none, none => usual

/-- The home of a store, seen from the working directory. -/
def resolve (workingDirectory : Path) (asked setting : Option Path) : Path :=
  workingDirectory.join (named asked setting)

/-- The file of the settings. -/
def settingsPath (home : Path) : Path :=
  home.join "config.yaml"

end Leasehold.Home
