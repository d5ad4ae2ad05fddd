import DistDirectives.Mapping.Names
import DistDirectives.Target

/-!
# Mapping between sources and distribution files

There are two layouts. In the flat one the source directory corresponds to
`dist-npm/bin` and to `dist-jsr/bin`. In the library one `<source>/libs/<lib>`
corresponds to `dist-libs/<lib>/<registry>/bin` for every registry of the library.
Below the corresponding directories relative places are the same and names follow
`Mapping.outputs` and `Mapping.sources`.

The mappings yield candidates; which of them exist is a question to the disk.
-/

namespace DistDirectives.Mapping

/-- The directory of library sources, below the source directory. -/
def librarySources : Text := "libs".toList

/-- The directory of build output, below every distribution root. -/
def outputDirectory : Text := "bin".toList

/-- The registries from which a library file is traced back to its source. -/
def tracedRegistries : List Text := ["npm".toList, "jsr".toList]

/-- The build output of a library for a registry. -/
def libraryRoot (library registry : Text) : Path :=
  (((Path.ofText Target.librariesDirectory).join library).join registry).join outputDirectory

/-- The sources of a library. -/
def librarySourceRoot (sourceDir library : Text) : Path :=
  ((Path.ofText sourceDir).join librarySources).join library

/-- The distribution files below a flat root that a source can be built into. A
source outside the source directory has none. -/
def forwardFlat (source : Path) (sourceDir flatRoot : Text) : List Path :=
  match source.strip? sourceDir with
  | none => []
  | some rest => (outputs rest.text).map (Path.ofText flatRoot).join

/-- The distribution files of a library that a source can be built into, registry
by registry. A source outside the library has none. -/
def forwardLibrary (source : Path) (sourceDir library : Text) (registries : List Text) :
    List (Text × Path) :=
  match source.strip? (librarySourceRoot sourceDir library).text with
  | none => []
  | some rest =>
    registries.flatMap fun registry =>
      (outputs rest.text).map fun file => (registry, (libraryRoot library registry).join file)

/-- The directory of sources that a distribution file belongs to, and its place
below the build output. -/
def originOf? (dist : Path) (sourceDir : Text) : Option (Path × List Text) :=
  match dist.segments with
  | libraries :: library :: registry :: bin :: first :: rest =>
    if libraries = Target.librariesDirectory ∧ registry ∈ tracedRegistries ∧
        bin = outputDirectory then
      some (librarySourceRoot sourceDir library, first :: rest)
    else flat? (libraries :: library :: registry :: bin :: first :: rest)
  | segments => flat? segments
where
  /-- The flat layout. -/
  flat? : List Text → Option (Path × List Text)
    | root :: bin :: first :: rest =>
      if (root = Target.npmDirectory ∨ root = Target.jsrDirectory) ∧ bin = outputDirectory then
        some (Path.ofText sourceDir, first :: rest)
      else none
    | _ => none

/-- The sources that a distribution file can come from, first choice first. A path
of neither layout has none. -/
def reverse (dist : Path) (sourceDir : Text) : List Path :=
  match originOf? dist sourceDir with
  | none => []
  | some (root, place) => (sources (Text.joinWith '/' place)).map root.join

end DistDirectives.Mapping
