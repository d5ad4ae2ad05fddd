import DistDirectives.Disk.Files

/-!
# Replacing a file as a whole

New content is written to a temporary file beside its place, which then takes the
place in one step. A directory that allows the one allows the other. So a reader
finds the old content or the new one, and a failure leaves the old content and no
temporary file; all that a failure can leave behind are directories on the way. A
link at the place is replaced by a file and what it stands for is left alone.

Operations that can change the disk before they fail yield the disk beside their
result.

To write into a file leaves its permission bits alone, those that set the user or the
group included, which a process without privileges would lose.
-/

namespace DistDirectives.Disk

/-- The permission bits of a new directory inside of another one, which hands on that
its group is kept. -/
def modeInside (disk : Disk) (outer : Location) : Nat :=
  match disk.get? outer with
  | some (.directory mode) => Node.directoryMode ||| (mode &&& Node.keepsGroup)
  | _ => Node.directoryMode

/-- The disk with a new directory at a place that must be free. -/
def makeDirectory (disk : Disk) (names : List Text) : Except Fault Disk :=
  match disk.walk false names with
  | .ok (.vacant outer name) =>
    if !disk.allows Node.ownerWrites outer then .error .accessDenied
    else .ok (disk.store (outer ++ [name]) (.directory (disk.modeInside outer)))
  | .ok (.node _ _) => .error .alreadyExists
  | .error fault => .error fault

/-- Whether names lead to a directory. -/
def leadsToDirectory (disk : Disk) (names : List Text) : Bool :=
  match disk.walk true names with
  | .ok (.node _ (.directory _)) => true
  | _ => false

/-- Makes a directory; one that is there already is fine. -/
def ensureDirectory (disk : Disk) (names : List Text) : Except Fault Disk :=
  match disk.makeDirectory names with
  | .ok made => .ok made
  | .error fault => if disk.leadsToDirectory names then .ok disk else .error fault

/-- Makes a directory together with the missing directories that lead to it. Its
names are given in reverse, the innermost first. -/
def ensureDirectories (disk : Disk) : List Text → Except Fault Unit × Disk
  | [] => (.ok (), disk)
  | name :: outer =>
    match disk.makeDirectory (name :: outer).reverse with
    | .ok made => (.ok (), made)
    | .error .notFound =>
      match ensureDirectories disk outer with
      | (.error fault, after) => (.error fault, after)
      | (.ok (), after) =>
        match after.ensureDirectory (name :: outer).reverse with
        | .ok made => (.ok (), made)
        | .error fault => (.error fault, after)
    | .error fault =>
      if disk.leadsToDirectory (name :: outer).reverse then (.ok (), disk)
      else (.error fault, disk)

/-- The name of the temporary file for a name, which is nothing for a place that
ends by going up. -/
def temporaryName (writer : Text) (names : List Text) : Text :=
  let name := match names.getLast? with
    | some name => if name = ['.', '.'] then [] else name
    | none => []
  '.' :: name ++ '.' :: writer ++ ".tmp".toList

/-- The directory of a path as it is spelled in messages. -/
def spelledParent (path : Path) : Text :=
  match path.parent? with
  | some parent => parent.text
  | none => ['.']

/-- A file name spelled below a directory. -/
def spelledBelow (directory name : Text) : Text :=
  if directory.getLast? = some '/' then directory ++ name else directory ++ '/' :: name

/-- The permission bits that new content at a path is given: those of what stands
there, as far as they are not masked. -/
def replacementMode (disk : Disk) (path : Path) : Nat :=
  match disk.modeOf path with
  | .ok mode => Node.masked mode
  | .error _ => Node.masked Node.fileMode

/-- The disk with a file that takes the place at the end of names, moved there from
a temporary location. -/
def moveInto (disk : Disk) (temporary : Location) (file : Node) (names : List Text) :
    Except Fault Disk :=
  if names.getLast? = some ['.', '.'] then .error .busy
  else
    match disk.walk false names with
    | .ok (.node _ (.directory _)) => .error (if names.isEmpty then .busy else .isDirectory)
    | .ok (.node location _) => .ok ((disk.erase temporary).store location file)
    | .ok (.vacant directory name) =>
      .ok ((disk.erase temporary).store (directory ++ [name]) file)
    | .error fault => .error fault

/-- Replaces what stands at a path by a file with new content. The writer is a name
for who writes; it is part of the name of the temporary file. -/
def replaceFile (disk : Disk) (writer : Text) (path : Path) (content : Bytes) :
    Except DiskError Unit × Disk :=
  let names := path.segments
  let parent := spelledParent path
  match disk.ensureDirectories names.dropLast.reverse with
  | (.error fault, after) => (.error (.at parent fault), after)
  | (.ok (), after) =>
    let name := temporaryName writer names
    let file := Node.file content (after.replacementMode path)
    match after.walk false (names.dropLast ++ [name]) with
    | .error fault => (.error (.temporary (spelledBelow parent name) fault), after)
    | .ok (.node _ _) => (.error (.temporary (spelledBelow parent name) .alreadyExists), after)
    | .ok (.vacant directory free) =>
      let temporary := directory ++ [free]
      let written := after.store temporary file
      if !after.allows Node.ownerWrites directory then
        (.error (.temporary (spelledBelow parent name) .accessDenied), after)
      else
        match written.moveInto temporary file names with
        | .ok done => (.ok (), done)
        | .error fault => (.error (.at path.text fault), written.erase temporary)

end DistDirectives.Disk
