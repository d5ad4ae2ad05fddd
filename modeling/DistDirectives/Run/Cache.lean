import DistDirectives.Disk.Files
import DistDirectives.Run.Exclusions
import DistDirectives.Run.Failure

/-!
# The cache of a run

Libraries and their registries are found by listing directories. Each list is kept
once it has been found, whatever happens to the disk afterwards; a failed listing is
not kept, so the next request looks again. The cache counts how often it looked.
-/

namespace DistDirectives.Run

/-- What a run has found out about libraries. -/
structure Cache where
  root : Path
  /-- The excluded runs of segments. -/
  exclusions : List Path
  libraries : Option (List Text) := none
  /-- The registries of the libraries that were asked for. -/
  registries : List (Text × List Text) := []
  /-- How often a directory was listed. -/
  scans : Nat := 0
  deriving DecidableEq

namespace Cache

/-- The cache at the beginning of a run. -/
def fresh (root : Path) (exclude : List Text) : Cache :=
  { root := root, exclusions := exclusionsOf exclude }

/-- The directory of all libraries. -/
def librariesPath (cache : Cache) : Path := cache.root.join Target.librariesDirectory

/-- The directory of a library. -/
def libraryPath (cache : Cache) (library : Text) : Path := cache.librariesPath.join library

/-- The names of the directories at a path. -/
def subdirectories (disk : Disk) (path : Path) : Except Failure (List Text) :=
  match disk.listDirectories path with
  | .ok names => .ok names
  | .error error => .error (.discovery path error)

/-- The names of all libraries. -/
def findLibraries (cache : Cache) (disk : Disk) : Except Failure (List Text) × Cache :=
  match cache.libraries with
  | some names => (.ok names, cache)
  | none =>
    let looked := { cache with scans := cache.scans + 1 }
    match subdirectories disk cache.librariesPath with
    | .ok names => (.ok names, { looked with libraries := some names })
    | .error failure => (.error failure, looked)

/-- The registries of a library. -/
def findRegistries (cache : Cache) (disk : Disk) (library : Text) :
    Except Failure (List Text) × Cache :=
  match cache.registries.lookup library with
  | some names => (.ok names, cache)
  | none =>
    let looked := { cache with scans := cache.scans + 1 }
    match subdirectories disk (cache.libraryPath library) with
    | .ok names => (.ok names, { looked with registries := (library, names) :: cache.registries })
    | .error failure => (.error failure, looked)

end Cache

end DistDirectives.Run
