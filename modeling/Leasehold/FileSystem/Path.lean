import Leasehold.Text.Split

/-!
# Paths

A path is text with slashes in it. Joining, and finding the name and the parent
of what a path leads to, are operations on the text alone: empty names and dots
do not count, except for a dot at the very front, and two dots are a name that
nothing is called by.
-/

namespace Leasehold

/-- A path to a file or a directory. -/
abbrev Path :=
  String

namespace Path

/-- Whether a path begins at the root. -/
def isAbsolute (path : Path) : Bool :=
  path.toList.head? == some '/'

/-- A path seen from a directory. -/
def join (base path : Path) : Path :=
  if path.isAbsolute then path
  else if base.toList.getLast?.all (· == '/') then base ++ path
  else base ++ "/" ++ path

/-- What stands between the slashes of a path. -/
def pieces (path : Path) : List String :=
  (Text.splitOn '/' path.toList).map String.ofList

/-- Whether a piece counts as a name. -/
def isName (piece : String) : Bool :=
  piece != "" && piece != "."

/-- The names in a path; a dot at the front is one. -/
def names (path : Path) : List String :=
  match path.pieces with
  | "." :: pieces => "." :: pieces.filter isName
  | pieces => pieces.filter isName

/-- The name of what a path leads to, if the path ends with one. -/
def fileName? (path : Path) : Option String :=
  match path.names.getLast? with
  | some name => if name = "." ∨ name = ".." then none else some name
  | none => none

/-- The path without the last of its names, if it has any. -/
def parent? (path : Path) : Option Path :=
  match path.names with
  | [] => none
  | names =>
    let before := "/".intercalate names.dropLast
    some (if path.isAbsolute then "/" ++ before else before)

end Path

end Leasehold
