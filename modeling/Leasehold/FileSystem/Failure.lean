/-!
# Failures of files and terminals

What can go wrong when a file is opened, read, written or moved, or a terminal
is read or written, and the text that says so.
-/

namespace Leasehold

/-- Why a file or a terminal did not do what it was asked to. -/
inductive IoFailure where
  | notFound
  | busy
  | exists
  | notDirectory
  | isDirectory
  | nameTooLong
  | notUtf8
  | nulInName
  | invalidTarget (path : String)
  | incompleteTree
  | sinkFull
  | other (text : String)
  deriving DecidableEq, Repr, Inhabited

/-- The text of a failure; those of the system end with its number for them. -/
def IoFailure.message : IoFailure → String
  | .notFound => "No such file or directory (os error 2)"
  | .busy => "Device or resource busy (os error 16)"
  | .exists => "File exists (os error 17)"
  | .notDirectory => "Not a directory (os error 20)"
  | .isDirectory => "Is a directory (os error 21)"
  | .nameTooLong => "File name too long (os error 36)"
  | .notUtf8 => "stream did not contain valid UTF-8"
  | .nulInName => "file name contained an unexpected NUL byte"
  | .invalidTarget path => "invalid file path '" ++ path ++ "'"
  | .incompleteTree => "failed to create whole tree"
  | .sinkFull => "sink full"
  | .other text => text

end Leasehold
