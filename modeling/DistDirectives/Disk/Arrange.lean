import DistDirectives.Disk.Replace

/-!
# Arranging a disk

Operations that put a disk into a wanted state: directories, files and links at
given names, permission bits, and removal of whole trees.
-/

namespace DistDirectives.Disk

/-- The disk with a directory at names, and the directories that lead to it. -/
def putDirectory (disk : Disk) (names : List Text) : Disk :=
  (disk.ensureDirectories names.reverse).2

/-- The disk with content written into the file at names, which is made if it is not
there and keeps its permission bits if it is. -/
def putFile (disk : Disk) (names : List Text) (content : Bytes) : Disk :=
  let ready := disk.putDirectory names.dropLast
  match ready.walk true names with
  | .ok (.node location (.file _ mode)) => ready.store location (.file content mode)
  | .ok (.vacant directory name) =>
    ready.store (directory ++ [name]) (.file content (Node.masked Node.fileMode))
  | _ => ready

/-- The disk with a link at names. -/
def putLink (disk : Disk) (names : List Text) (target : Text) : Disk :=
  let ready := disk.putDirectory names.dropLast
  match ready.walk false names with
  | .ok (.vacant directory name) => ready.store (directory ++ [name]) (.link target)
  | _ => ready

/-- The disk with other permission bits on what stands at names, links followed. -/
def putMode (disk : Disk) (names : List Text) (mode : Nat) : Disk :=
  match disk.walk true names with
  | .ok (.node location (.file content _)) => disk.store location (.file content mode)
  | .ok (.node location (.directory _)) => disk.store location (.directory mode)
  | _ => disk

/-- The disk without what stands at names and everything below it. -/
def removeAll (disk : Disk) (names : List Text) : Disk :=
  match disk.walk false names with
  | .ok (.node location _) => disk.eraseTree location
  | _ => disk

end DistDirectives.Disk
