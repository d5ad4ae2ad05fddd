import DistDirectives.Binary
import DistDirectives.Disk.Walk

/-!
# Files and directories at paths

Reading, listing and removing by path. Reading and listing follow links; removing
takes away a link itself and leaves what it stands for. A file is read, a directory
listed, and an entry removed from one only with the permission to do so; finding out what
stands at a path takes none but to search the directories on the way.
-/

namespace DistDirectives.Disk

/-- Whether a regular file stands at a path. Whatever prevents finding out counts
as no. -/
def isFile (disk : Disk) (path : Path) : Bool :=
  match disk.lookup path with
  | .ok (.file _ _) => true
  | _ => false

/-- Whether a directory stands at a path. -/
def isDirectory (disk : Disk) (path : Path) : Bool :=
  match disk.lookup path with
  | .ok (.directory _) => true
  | _ => false

/-- Refuses a path at which no directory stands. -/
def requireDirectory (disk : Disk) (path : Path) : Except DiskError Unit :=
  match disk.lookup path with
  | .ok (.directory _) => .ok ()
  | .ok _ => .error (.at path.text .directoryRequired)
  | .error fault => .error (.at path.text fault)

/-- The bytes of the file at a path. -/
def readBytes (disk : Disk) (path : Path) : Except DiskError Bytes :=
  match disk.lookup path with
  | .ok (.file content mode) =>
    if disk.permits mode then .ok content else .error (.at path.text .accessDenied)
  | .ok (.directory mode) =>
    .error (.at path.text (if disk.permits mode then .isDirectory else .accessDenied))
  | .ok (.link _) => .error (.at path.text .tooManyLinks)
  | .error fault => .error (.at path.text fault)

/-- The text of the file at a path. -/
def readText (disk : Disk) (path : Path) : Except DiskError Text := do
  let bytes ← disk.readBytes path
  match Utf8.decode? bytes with
  | some text => return text
  | none => throw (.notText path.text)

/-- The kinds of entries that are told apart in a listing. -/
inductive EntryKind where
  | file
  | directory
  /-- Links, whatever they stand for. -/
  | other
  deriving DecidableEq

/-- The kind of a node. -/
def kindOf : Node → EntryKind
  | .file _ _ => .file
  | .directory _ => .directory
  | .link _ => .other

/-- One entry of a listing. -/
structure Entry where
  name : Text
  path : Path
  kind : EntryKind
  deriving DecidableEq

/-- The entries of the directory at a path, in increasing order of names. The path
of an entry is the path of the directory extended by the name, read as a path. -/
def list (disk : Disk) (path : Path) : Except DiskError (List Entry) :=
  match disk.walk true path.segments with
  | .ok (.node location (.directory mode)) =>
    if disk.permits mode then
      .ok ((disk.children location).map fun child =>
        { name := child.1, path := path.join child.1, kind := kindOf child.2 })
    else
      .error (.at path.text .accessDenied)
  | .ok (.node _ _) => .error (.at path.text .notDirectory)
  | .ok (.vacant _ _) => .error (.at path.text .notFound)
  | .error fault => .error (.at path.text fault)

/-- The names of the directories among the entries of a directory. -/
def listDirectories (disk : Disk) (path : Path) : Except DiskError (List Text) := do
  let entries ← disk.list path
  return (entries.filter (·.kind == .directory)).map (·.name)

/-- The disk without the file or link at a path. -/
def removeFile (disk : Disk) (path : Path) : Except DiskError Disk :=
  match disk.walk false path.segments with
  | .ok (.node location node) =>
    if !disk.allows Node.ownerWrites location.dropLast then .error (.at path.text .accessDenied)
    else
      match node with
      | .directory _ => .error (.at path.text .isDirectory)
      | _ => .ok (disk.erase location)
  | .ok (.vacant _ _) => .error (.at path.text .notFound)
  | .error fault => .error (.at path.text fault)

/-- The permission bits of what stands at a path, links followed. -/
def modeOf (disk : Disk) (path : Path) : Except DiskError Nat :=
  match disk.lookup path with
  | .ok (.file _ mode) | .ok (.directory mode) => .ok mode
  | .ok (.link _) => .error (.at path.text .tooManyLinks)
  | .error fault => .error (.at path.text fault)

end DistDirectives.Disk
