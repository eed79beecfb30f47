import Leasehold.FileSystem.Call

/-!
# Replacing files

A file is replaced by writing the new content to a temporary file beside it and
moving that over it, so that whoever reads the file finds either the old content
or the new one. The temporary name holds the number of the process: two
processes that replace the same file do not share a temporary one. Should a step
fail, the temporary file is removed again.
-/

namespace Leasehold.FileSystem

/-- The temporary path of a process beside a path, if the path ends with a name. -/
def temporary? (pid : Nat) (path : Path) : Option Path :=
  path.fileName?.map fun name =>
    (path.parent?.getD ".").join ("." ++ name ++ "." ++ toString pid ++ ".tmp")

/-- Makes the directory that a path lies in, unless that is there. -/
def ensureParent (path : Path) : FileProgram (Except IoFailure Unit) := do
  match path.parent? with
  | none => return .ok ()
  | some parent =>
    if parent = "" then return .ok ()
    else if ← (FileCall.isPresent parent).perform then return .ok ()
    else makeDirectories parent

/-- Gives up a replacement. -/
def abandon (temporary : Path) (failure : IoFailure) : FileProgram (Except IoFailure Unit) := do
  let _ ← (FileCall.remove temporary).perform
  return .error failure

/-- Replaces the content of a file by way of a temporary one. -/
def replaceBy (temporary path : Path) (content : ByteArray) :
    FileProgram (Except IoFailure Unit) := do
  match ← (FileCall.create temporary).perform with
  | .error failure => abandon temporary failure
  | .ok () =>
    match ← (FileCall.write temporary content).perform with
    | .error failure => abandon temporary failure
    | .ok () =>
      match ← (FileCall.rename temporary path).perform with
      | .error failure => abandon temporary failure
      | .ok () => return .ok ()

/-- Replaces the content of a file, or makes the file and its directories. -/
def replaceFile (pid : Nat) (path : Path) (content : ByteArray) :
    FileProgram (Except IoFailure Unit) := do
  match ← ensureParent path with
  | .error failure => return .error failure
  | .ok () =>
    match temporary? pid path with
    | none => return .error (.invalidTarget path)
    | some temporary => replaceBy temporary path content

end Leasehold.FileSystem
