import DistDirectives.Text.Quoted

/-!
# Causes of failure

A fault is the reason for which an operation on a disk is refused. A disk error
carries the path that was asked for, or the path of the temporary file that could
not be made, together with the fault.
-/

namespace DistDirectives

/-- Why an operation on a disk is refused. -/
inductive Fault where
  | notFound
  | accessDenied
  | busy
  | alreadyExists
  | notDirectory
  | isDirectory
  | nameTooLong
  | tooManyLinks
  /-- A path holds a character that no name may hold. -/
  | zeroInName
  /-- A directory is required where something else was found. -/
  | directoryRequired
  deriving DecidableEq

namespace Fault

/-- The fault as it is shown. -/
def message : Fault → String
  | notFound => "No such file or directory (os error 2)"
  | accessDenied => "Permission denied (os error 13)"
  | busy => "Device or resource busy (os error 16)"
  | alreadyExists => "File exists (os error 17)"
  | notDirectory => "Not a directory (os error 20)"
  | isDirectory => "Is a directory (os error 21)"
  | nameTooLong => "File name too long (os error 36)"
  | tooManyLinks => "Too many levels of symbolic links (os error 40)"
  | zeroInName => "file name contained an unexpected NUL byte"
  | directoryRequired => "not a directory"

end Fault

/-- A fault and where it was met. -/
inductive DiskError where
  | at (path : Text) (fault : Fault)
  /-- The temporary file beside a file that is to be replaced cannot be made. -/
  | temporary (path : Text) (fault : Fault)
  /-- The content of a file is no text. -/
  | notText (path : Text)
  deriving DecidableEq

namespace DiskError

/-- The error as it is shown. -/
def message : DiskError → String
  | «at» path fault => s!"I/O error at {path.toString}: {fault.message}"
  | temporary path fault =>
    s!"I/O error at {path.toString}: {fault.message} at path {(Text.quoted path).toString}"
  | notText path => s!"File at {path.toString} is not valid UTF-8 text"

end DiskError

end DistDirectives
