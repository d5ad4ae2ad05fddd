import DistDirectives.Directive.Edit
import DistDirectives.Disk.Replace
import DistDirectives.Run.Expansion
import DistDirectives.Run.Freshness
import DistDirectives.Run.Report

/-!
# Processing one distribution file

The final content of a file is found first. It is written at most once, and only if
it differs from what is there, so processing a file again changes nothing as long as
its source stays the same.
-/

namespace DistDirectives.Run

/-- Where a run takes place, and how its files are processed. -/
structure Setting where
  root : Path
  sourceDir : Text
  /-- The name under which temporary files are written. -/
  writer : Text
  fresh : Bool
  dryRun : Bool
  deriving DecidableEq

/-- What processing a file yields. -/
structure FileResult where
  /-- The change, if there is one. -/
  processed : Option ProcessedFile := none
  /-- The number of warnings about directives. -/
  warnings : Nat := 0
  deriving DecidableEq

/-- The edit of the file at a path that some bytes call for, and the number of
warnings. Bytes that are no text, or look binary, are left as they are. -/
def editOf (path : Path) (bytes : Bytes) : Edit × Nat :=
  match Utf8.decode? bytes with
  | none => (.unchanged, 0)
  | some content =>
    if Binary.looksBinary bytes then
      (.unchanged, 0)
    else
      let application := Edit.apply path.text content
      (application.edit, application.warnings.length)

/-- Puts content at a path unless it is what is there already. -/
def commit (setting : Setting) (disk : Disk) (full : Path) (content current : Bytes) :
    Except DiskError (Option FileAction) × Disk :=
  if content = current then
    (.ok none, disk)
  else if setting.dryRun then
    (.ok (some .modified), disk)
  else
    match disk.replaceFile setting.writer full content with
    | (.ok (), after) => (.ok (some .modified), after)
    | (.error error, after) => (.error error, after)

/-- Carries out an edit on the file at a path; an edit that changes nothing still
puts the fresh bytes there. -/
def carryOut (setting : Setting) (disk : Disk) (full : Path) (fresh current : Bytes) :
    Edit → Except DiskError (Option FileAction) × Disk
  | .remove =>
    if setting.dryRun then
      (.ok (some .removed), disk)
    else
      match disk.removeFile full with
      | .ok after => (.ok (some .removed), after)
      | .error error => (.error error, disk)
  | .revised text => commit setting disk full (Utf8.encode text) current
  | .unchanged => commit setting disk full fresh current

/-- Processes a distribution file. -/
def process (setting : Setting) (disk : Disk) (dist : DistFile) :
    Except DiskError FileResult × Disk :=
  let full := setting.root.join dist.path.text
  match disk.readBytes full with
  | .error error => (.error error, disk)
  | .ok current =>
    match refresh disk setting.root setting.sourceDir setting.fresh dist.path current with
    | .error error => (.error error, disk)
    | .ok fresh =>
      let (edit, warnings) := editOf dist.path fresh.bytes
      match carryOut setting disk full fresh.bytes current edit with
      | (.error error, after) => (.error error, after)
      | (.ok action, after) =>
        let processed := action.map fun action =>
          { path := dist.path, action := action, target := dist.target }
        (.ok { processed := processed, warnings := warnings }, after)

end DistDirectives.Run
