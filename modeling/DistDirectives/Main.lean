import DistDirectives.CommandLine
import DistDirectives.Disk.Arrange

/-!
# The program

The command works on the tree of a project. The names of the files that the tree
consists of are read from standard input, one a line and relative to the current
directory; what the command makes of the tree is written back file by file, each through
a temporary file that takes its place.
-/

namespace DistDirectives.Program

/-- The names on the way to a place, the current directory being given. -/
def locationFrom (directory : Location) (path : String) : Location :=
  let names := (Path.ofText path.toList).segments
  if path.startsWith "/" then names else directory ++ names

/-- The text of a location. -/
def spelled (location : Location) : String :=
  String.ofList ('/' :: Text.joinWith '/' location)

/-- The tree of some files. -/
def readTree (directory : Location) (names : List String) : IO Disk := do
  let mut disk := Disk.empty.putDirectory directory
  for name in names do
    let location := locationFrom directory name
    let content ← IO.FS.readBinFile (spelled location)
    disk := disk.putFile location content.toList
  return disk

/-- Writes a file through a temporary one. -/
def writeFile (writer : Text) (location : Location) (content : Bytes) : IO Unit := do
  let temporary := location.dropLast ++ [Disk.temporaryName writer location]
  IO.FS.createDirAll (spelled location.dropLast)
  IO.FS.writeBinFile (spelled temporary) content.toByteArray
  IO.FS.rename (spelled temporary) (spelled location)

/-- Writes back the files in which two trees differ. -/
def writeBack (writer : Text) (before after : Disk) : IO Unit := do
  for (location, node) in after.below [] do
    match node with
    | .file content _ =>
      if before.get? location != some node then writeFile writer location content
    | _ => pure ()
  for (location, _) in before.below [] do
    if (after.get? location).isNone then IO.FS.removeFile (spelled location)

/-- The lines of standard input that are not empty. -/
def inputLines : IO (List String) := do
  let text ← (← IO.getStdin).readToEnd
  return ((Text.splitOn '\n' text.toList).filter (!·.isEmpty)).map String.ofList

end DistDirectives.Program

open DistDirectives in
/-- Runs the command and ends with its code. -/
def main (arguments : List String) : IO UInt32 := do
  let directory := (Path.ofText (toString (← IO.currentDir)).toList).segments
  let root := (← IO.getEnv "DLER_ROOT").map String.toList
  let writer := (toString (← IO.monoNanosNow)).toList
  let environment : CommandLine.Environment := { directory, writer, root }
  let arguments := arguments.map String.toList
  let needsTree := match CommandLine.read root arguments with
    | .ok request => request.directives.isSome
    | .error _ => false
  let before ← if needsTree then Program.readTree directory (← Program.inputLines)
    else pure Disk.empty
  let (outcome, after) := CommandLine.run environment before arguments
  Program.writeBack writer before after
  IO.print outcome.output
  IO.eprint outcome.errors
  return outcome.code.toUInt32
