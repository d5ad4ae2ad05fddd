import DistDirectives.Disk
import DistDirectives.Disk.Fault
import DistDirectives.Path
import DistDirectives.Text.Utf8

/-!
# Walking to a location

A path is followed name by name from the top directory. A single dot stays where it
is, two dots go up and stay at the top there, a symbolic link is replaced by the
names that it stands for. A walk ends at a node, or at the directory in which its
last name is free. It is refused when a name is missing before the end, when
something other than a directory stands before the end, when a directory on the way
may not be searched, when a name is too long, or when more links are met than a walk
may follow. The operations on a disk also refuse paths that are too long as a whole.
-/

namespace DistDirectives

/-- Where a walk ends. -/
inductive Found where
  | node (location : Location) (node : Node)
  /-- The last name is free in an existing directory. -/
  | vacant (directory : Location) (name : Text)
  deriving DecidableEq

namespace Disk

/-- The number of bytes that a name can have. -/
def longestName : Nat := 255

/-- The number of bytes that the path of an operation can have. -/
def longestPath : Nat := 4095

/-- The number of links that a walk can follow. -/
def mostLinks : Nat := 40

/-- The names of a text that is not put into canonical form. A slash at the end
asks for a directory, as a single dot does. -/
def rawNames (raw : Text) : List Text :=
  (Text.splitOn '/' raw).filter (!·.isEmpty) ++ if raw.getLast? = some '/' then [['.']] else []

/-- The directory from which the text of a link is followed. -/
def linkOrigin (here : Location) (target : Text) : Location :=
  if target.head? = some '/' then [] else here

/-- A walk from a directory, with a given way to go on behind a link. -/
def walkFrom (disk : Disk) (followLast : Bool)
    (behindLink : Location → List Text → Except Fault Found) :
    Location → List Text → Except Fault Found
  | here, [] => .ok (.node here ((disk.get? here).getD (.directory Node.directoryMode)))
  | here, name :: rest =>
    if name = ['.'] then walkFrom disk followLast behindLink here rest
    else if !disk.allows Node.ownerSearches here then .error .accessDenied
    else if name = ['.', '.'] then walkFrom disk followLast behindLink here.dropLast rest
    else if longestName < Utf8.size name then .error .nameTooLong
    else
      match disk.get? (here ++ [name]) with
      | none => if rest.isEmpty then .ok (.vacant here name) else .error .notFound
      | some (.file content mode) =>
        if rest.isEmpty then .ok (.node (here ++ [name]) (.file content mode))
        else .error .notDirectory
      | some (.directory _) => walkFrom disk followLast behindLink (here ++ [name]) rest
      | some (.link target) =>
        if rest.isEmpty && !followLast then .ok (.node (here ++ [name]) (.link target))
        else behindLink (linkOrigin here target) (rawNames target ++ rest)

/-- A walk that can follow a number of links. -/
def walkWithin (disk : Disk) (followLast : Bool) : Nat → Location → List Text → Except Fault Found
  | 0 => walkFrom disk followLast fun _ _ => .error .tooManyLinks
  | links + 1 => walkFrom disk followLast (walkWithin disk followLast links)

/-- The number of bytes of the path that names spell from the top directory. -/
def spelledSize : List Text → Nat
  | [] => 0
  | name :: rest => Utf8.size name + 1 + spelledSize rest

/-- The end of a walk from the top directory, however many names there are. A link at
the end is followed or not, as asked. -/
def resolve (disk : Disk) (followLast : Bool) (names : List Text) : Except Fault Found :=
  if names.any (·.contains '\x00') then .error .zeroInName
  else walkWithin disk followLast mostLinks [] names

/-- The end of a walk from the top directory along a path that an operation is given. -/
def walk (disk : Disk) (followLast : Bool) (names : List Text) : Except Fault Found :=
  if names.any (·.contains '\x00') then .error .zeroInName
  else if longestPath < spelledSize names then .error .nameTooLong
  else disk.resolve followLast names

/-- What stands at a path, links followed. -/
def lookup (disk : Disk) (path : Path) : Except Fault Node :=
  match disk.walk true path.segments with
  | .error fault => .error fault
  | .ok (.node _ node) => .ok node
  | .ok (.vacant _ _) => .error .notFound

end Disk

end DistDirectives
