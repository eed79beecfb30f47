import Leasehold.FileSystem.Failure
import Leasehold.FileSystem.Path
import Leasehold.Program

/-!
# File calls

What is asked of a file system, one thing at a time. Each call does all of what
it says or, if it fails, nothing; two processes may come between two calls of
each other.
-/

namespace Leasehold

/-- A single request to a file system. -/
inductive FileCall where
  | isPresent (path : Path)
  | isFile (path : Path)
  | isDirectory (path : Path)
  | makeDirectory (path : Path)
  | read (path : Path)
  /-- Makes an empty file, or empties the one that is there. -/
  | create (path : Path)
  /-- Opens a file to write to it, and makes it if it is not there. -/
  | openFile (path : Path)
  /-- Waits until nobody else has an open file locked and locks it. -/
  | lock (path : Path)
  | unlock (path : Path)
  /-- Puts a content into an open file, safely on disk. -/
  | write (path : Path) (content : ByteArray)
  /-- Adds to the end of an open file. -/
  | append (path : Path) (content : ByteArray)
  /-- Moves a file to another path, in place of a file that is there. -/
  | rename (source target : Path)
  | remove (path : Path)

namespace FileCall

/-- What a call answers. -/
@[reducible]
def Reply : FileCall → Type
  | .isPresent _ => Bool
  | .isFile _ => Bool
  | .isDirectory _ => Bool
  | .read _ => Except IoFailure ByteArray
  | .makeDirectory _ => Except IoFailure Unit
  | .create _ => Except IoFailure Unit
  | .openFile _ => Except IoFailure Unit
  | .lock _ => Except IoFailure Unit
  | .unlock _ => Except IoFailure Unit
  | .write .. => Except IoFailure Unit
  | .append .. => Except IoFailure Unit
  | .rename .. => Except IoFailure Unit
  | .remove _ => Except IoFailure Unit

end FileCall

/-- A program of file calls. -/
abbrev FileProgram (α : Type) : Type :=
  Program FileCall.Reply α

/-- One file call. -/
def FileCall.perform (call : FileCall) : FileProgram call.Reply :=
  Program.perform call

namespace FileSystem

/-- The content of a file as text. -/
def readText (path : Path) : FileProgram (Except IoFailure String) := do
  match ← (FileCall.read path).perform with
  | .error failure => return .error failure
  | .ok content =>
    match String.fromUTF8? content with
    | some text => return .ok text
    | none => return .error .notUtf8

/-- Makes a directory whose parents are there; one that is there already will do. -/
def ensureDirectory (path : Path) : FileProgram (Except IoFailure Unit) := do
  match ← (FileCall.makeDirectory path).perform with
  | .ok () => return .ok ()
  | .error failure =>
    if ← (FileCall.isDirectory path).perform then return .ok () else return .error failure

/-- Makes the directories of a list, each one's parent after it, beginning with
the first whose parent is there. -/
def makeMissing : List Path → FileProgram (Except IoFailure Unit)
  | [] => return .error .incompleteTree
  | "" :: _ => return .ok ()
  | path :: parents => do
    match ← (FileCall.makeDirectory path).perform with
    | .ok () => return .ok ()
    | .error .notFound =>
      match ← makeMissing parents with
      | .ok () => ensureDirectory path
      | .error failure => return .error failure
    | .error failure =>
      if ← (FileCall.isDirectory path).perform then return .ok () else return .error failure

end FileSystem

/-- A path and its parents, up to so many. -/
def Path.ancestors : Nat → Path → List Path
  | 0, path => [path]
  | n + 1, path =>
    match path.parent? with
    | some parent => path :: ancestors n parent
    | none => [path]

/-- Makes a directory and those of its parents that are missing. -/
def FileSystem.makeDirectories (path : Path) : FileProgram (Except IoFailure Unit) :=
  makeMissing (path.ancestors path.names.length)

end Leasehold
