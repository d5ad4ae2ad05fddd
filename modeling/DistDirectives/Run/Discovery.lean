import DistDirectives.Directive
import DistDirectives.Disk.Files
import DistDirectives.Run.Exclusions
import DistDirectives.Run.Failure

/-!
# Discovery of sources

The source directory is walked depth first, each directory in the order of its
names, with a stack of entries that are still to be looked at. A regular file counts as
a source when it is not excluded, is not binary, is text, and mentions a directive.
Links are passed over.

The steps of a walk are bounded by the size of the disk. The bound is reached only where
a directory has a name that is read as nothing, so that its path leads back to where it
stands; such a walk would not end.
-/

namespace DistDirectives.Run

/-- A source file that mentions a directive. -/
structure SourceFile where
  /-- The path as seen from the project root. -/
  path : Path
  content : Text
  deriving DecidableEq

namespace Discovery

/-- The source that a file is, if it is one. -/
def sourceAt (disk : Disk) (relative full : Path) : Except Failure (List SourceFile) :=
  if Binary.hasExtension relative.extension? then
    .ok []
  else
    match disk.readBytes full with
    | .error error => .error (.discovery full error)
    | .ok bytes =>
      if Binary.looksBinary bytes then
        .ok []
      else
        match Utf8.decode? bytes with
        | none => .ok []
        | some content =>
          .ok (if Directive.mentioned content then [{ path := relative, content := content }]
            else [])

/-- The entries of the directory at a path, the last one first. -/
def listReversed (disk : Disk) (path : Path) : Except Failure (List Disk.Entry) :=
  match disk.list path with
  | .error error => .error (.discovery path error)
  | .ok entries => .ok entries.reverse

/-- A stack onto which entries are put, one after the other. Its top is the head. -/
def stacked (stack entries : List Disk.Entry) : List Disk.Entry :=
  entries.foldl (fun stack entry => entry :: stack) stack

/-- Takes entries from a stack until none is left, as long as there are steps to take. The
entries of a directory are put onto the stack, and the sources among the files are added to
those found before. -/
def sweep (disk : Disk) (root : Path) (exclusions : List Path) :
    Nat → List Disk.Entry → List SourceFile → Except Failure (List SourceFile)
  | _, [], found => .ok found
  | 0, entry :: _, _ => .error (.discovery entry.path (.at entry.path.text .nameTooLong))
  | steps + 1, entry :: stack, found =>
    match entry.path.relativeTo? root with
    | none => sweep disk root exclusions steps stack found
    | some relative =>
      if isExcluded exclusions relative then
        sweep disk root exclusions steps stack found
      else
        match entry.kind with
        | .directory =>
          match listReversed disk entry.path with
          | .error failure => .error failure
          | .ok entries => sweep disk root exclusions steps (stacked stack entries) found
        | .file =>
          match sourceAt disk relative entry.path with
          | .error failure => .error failure
          | .ok sources => sweep disk root exclusions steps stack (found ++ sources)
        | .other => sweep disk root exclusions steps stack found

/-- The levels that a walk can go down: every one of them makes the path of a directory
longer, and the last one is that of paths that are too long. -/
def mostLevels : Nat := Disk.longestPath + 2

/-- The steps that a walk over a number of levels can take: no directory has more entries than
there are nodes on the disk. -/
def mostSteps (disk : Disk) (levels : Nat) : Nat := (disk.entries.length + 1).pow levels

end Discovery

/-- The sources of a project, in the order of the walk. -/
def discover (disk : Disk) (root : Path) (sourceDir : Text) (exclusions : List Path) :
    Except Failure (List SourceFile) :=
  let start := root.join sourceDir
  match disk.requireDirectory start with
  | .error error => .error (.discovery start error)
  | .ok () =>
    match Discovery.listReversed disk start with
    | .error failure => .error failure
    | .ok entries =>
      Discovery.sweep disk root exclusions (Discovery.mostSteps disk Discovery.mostLevels)
        (Discovery.stacked [] entries) []

end DistDirectives.Run
