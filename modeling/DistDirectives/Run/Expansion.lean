import DistDirectives.Mapping
import DistDirectives.Run.Cache
import DistDirectives.Run.Discovery

/-!
# Expansion of targets

A target is expanded into the distribution files that its sources can have been
built into and that exist. No path is yielded twice: the first candidate with a path
counts.
-/

namespace DistDirectives.Run

/-- The layout that a distribution file belongs to. -/
inductive Layout where
  | flat
  | library (name registry : Text)
  deriving DecidableEq

/-- A distribution file that is to be processed. -/
structure DistFile where
  /-- The path as seen from the project root. -/
  path : Path
  layout : Layout
  /-- The requested target, as it is written. -/
  target : Text
  deriving DecidableEq

namespace Expansion

/-- The candidates of all sources below a flat root. -/
def flatCandidates (sourceDir flatRoot label : Text) (sources : List SourceFile) :
    List DistFile :=
  sources.flatMap fun source =>
    (Mapping.forwardFlat source.path sourceDir flatRoot).map fun path =>
      { path := path, layout := .flat, target := label }

/-- The candidates of all sources in a library. -/
def libraryCandidates (sourceDir label library : Text) (registries : List Text)
    (sources : List SourceFile) : List DistFile :=
  sources.flatMap fun source =>
    (Mapping.forwardLibrary source.path sourceDir library registries).map fun candidate =>
      { path := candidate.2, layout := .library library candidate.1, target := label }

/-- The candidates in several libraries, one library after the other. -/
def allCandidates (disk : Disk) (sourceDir label : Text) (sources : List SourceFile) :
    List Text → Cache → Except Failure (List DistFile) × Cache
  | [], cache => (.ok [], cache)
  | library :: libraries, cache =>
    match cache.findRegistries disk library with
    | (.error failure, cache) => (.error failure, cache)
    | (.ok registries, cache) =>
      match allCandidates disk sourceDir label sources libraries cache with
      | (.error failure, cache) => (.error failure, cache)
      | (.ok more, cache) =>
        (.ok (libraryCandidates sourceDir label library registries sources ++ more), cache)

/-- The candidates of a target. A flat target must have its root directory. -/
def candidates (disk : Disk) (cache : Cache) (sourceDir : Text) (target : Target)
    (sources : List SourceFile) : Except Failure (List DistFile) × Cache :=
  match target.flatRoot? with
  | some flatRoot =>
    let directory := cache.root.join flatRoot
    match disk.requireDirectory directory with
    | .error error => (.error (.discovery directory error), cache)
    | .ok () => (.ok (flatCandidates sourceDir flatRoot target.text sources), cache)
  | none =>
    match target with
    | .library library => allCandidates disk sourceDir target.text sources [library] cache
    | _ =>
      match cache.findLibraries disk with
      | (.error failure, cache) => (.error failure, cache)
      | (.ok libraries, cache) =>
        allCandidates disk sourceDir target.text sources libraries cache

/-- The files with the first occurrence of each path, those seen before left out. -/
def distinct (seen : List Path) : List DistFile → List DistFile
  | [] => []
  | file :: files =>
    if seen.contains file.path then distinct seen files
    else file :: distinct (file.path :: seen) files

end Expansion

/-- The existing distribution files of a target. -/
def expand (disk : Disk) (cache : Cache) (sourceDir : Text) (target : Target)
    (sources : List SourceFile) : Except Failure (List DistFile) × Cache :=
  match Expansion.candidates disk cache sourceDir target sources with
  | (.error failure, cache) => (.error failure, cache)
  | (.ok candidates, cache) =>
    (.ok ((Expansion.distinct [] candidates).filter fun file =>
      disk.isFile (cache.root.join file.path.text)), cache)

end DistDirectives.Run
