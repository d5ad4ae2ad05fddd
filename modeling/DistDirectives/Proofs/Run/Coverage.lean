import DistDirectives.Proofs.Run.Expansion

/-!
# Where expanded files lie

Every expanded file lies below a distribution root of its target, at a path made of plain
names. The one exception is a library whose sources are a single file in place of their
directory: its output is the root itself. The targets of an accepted list cover different
paths, so no file is expanded for two of them.
-/

namespace DistDirectives.Run

open DistDirectives.Path (IsPlainName)

/-- The directories of distributions, in a project. -/
def distDirectories : List Text :=
  [Target.npmDirectory, Target.jsrDirectory, Target.librariesDirectory]

/-- A path below a directory of distributions that is made of plain names. -/
structure IsDistPath (path : Path) : Prop where
  relative : path.isAbsolute = false
  plain : ∀ segment ∈ path.segments, IsPlainName segment
  top : ∃ directory ∈ distDirectories, ∃ rest, rest ≠ [] ∧ path.segments = directory :: rest

theorem isPlainName_of_mem_distDirectories {directory : Text} (mem : directory ∈ distDirectories) :
    IsPlainName directory := by
  have plain : ∀ directory ∈ distDirectories, directory ≠ [] ∧ directory ≠ ['.'] ∧ '/' ∉ directory ∧
      '\\' ∉ directory ∧ directory ≠ ['.', '.'] := by decide
  obtain ⟨ne_nil, ne_dot, no_slash, no_backslash, ne_dots⟩ := plain directory mem
  exact ⟨⟨ne_nil, ne_dot, no_slash, no_backslash⟩, ne_dots⟩

theorem isPlainName_outputDirectory : IsPlainName Mapping.outputDirectory :=
  ⟨⟨by decide, by decide, by decide, by decide⟩, by decide⟩

end DistDirectives.Run

/-! ## Paths that targets cover -/

namespace DistDirectives.Target

/-- The distribution roots of a target, by their names. -/
inductive HasRoot : Target → List Text → Prop
  | npm : HasRoot npm [npmDirectory, Mapping.outputDirectory]
  | jsr : HasRoot jsr [jsrDirectory, Mapping.outputDirectory]
  | library (name registry : Text) :
      HasRoot (library name) [librariesDirectory, name, registry, Mapping.outputDirectory]
  | allLibraries (name registry : Text) :
      HasRoot allLibraries [librariesDirectory, name, registry, Mapping.outputDirectory]

/-- A path lies below a distribution root of a target, or is one. -/
def Covers (target : Target) (path : Path) : Prop :=
  ∃ root rest, target.HasRoot root ∧ path.segments = root ++ rest

/-- A path lies below a distribution root of a target. -/
def Encloses (target : Target) (path : Path) : Prop :=
  ∃ root rest, target.HasRoot root ∧ rest ≠ [] ∧ path.segments = root ++ rest

/-- The roots of a target have the same length, so no root lies below another. -/
theorem HasRoot.length_eq {target : Target} {root other : List Text} (hasRoot : target.HasRoot root)
    (otherRoot : target.HasRoot other) : other.length = root.length := by
  cases hasRoot <;> cases otherRoot <;> rfl

theorem HasRoot.encloses_iff {target : Target} {root rest : List Text} {path : Path}
    (hasRoot : target.HasRoot root) (segments : path.segments = root ++ rest) :
    target.Encloses path ↔ rest ≠ [] := by
  constructor
  · rintro ⟨other, inner, otherRoot, nonempty, others⟩
    have lengths := congrArg List.length (segments.symm.trans others)
    rw [List.length_append, List.length_append, hasRoot.length_eq otherRoot] at lengths
    intro none_left
    rw [none_left, List.length_nil] at lengths
    exact nonempty (List.eq_nil_of_length_eq_zero (by omega))
  · exact fun nonempty => ⟨root, rest, hasRoot, nonempty, segments⟩

/-- The directory of distributions that a target belongs to. -/
def topDirectory : Target → Text
  | npm => npmDirectory
  | jsr => jsrDirectory
  | library _ | allLibraries => librariesDirectory

/-- The directory below which everything lies that a target covers. -/
def area : Target → List Text
  | library name => [librariesDirectory, name]
  | target => [target.topDirectory]

theorem head?_area (target : Target) : target.area.head? = some target.topDirectory := by
  cases target <;> rfl

/-- Not only a covered path lies there, but also what stands beside it. -/
theorem Covers.area_isPrefix {target : Target} {path : Path} (covers : target.Covers path) :
    target.area <+: path.segments.dropLast := by
  rcases covers with ⟨root, rest, hasRoot, segments⟩
  rw [segments]
  cases hasRoot <;> cases rest <;> simp [area, topDirectory]

/-- No directory lies in the areas of two targets of an accepted list. -/
theorem Accepted.eq_of_area_isPrefix {targets : List Target} (accepted : Accepted targets)
    {target other : Target} (mem : target ∈ targets) (otherMem : other ∈ targets)
    {names : List Text}
    (inside : target.area <+: names) (otherInside : other.area <+: names) : target = other := by
  rcases inside with ⟨rest, rfl⟩
  rcases otherInside with ⟨otherRest, same⟩
  have top : target.topDirectory = other.topDirectory := by
    have heads := congrArg List.head? same
    rw [List.head?_append, List.head?_append, head?_area, head?_area] at heads
    exact (Option.some.inj heads).symm
  have apart : npmDirectory ≠ jsrDirectory ∧ npmDirectory ≠ librariesDirectory ∧
      jsrDirectory ≠ librariesDirectory := by decide
  rcases apart with ⟨npmJsr, npmLibraries, jsrLibraries⟩
  cases target with
  | npm =>
      cases other with
      | npm => rfl
      | jsr => exact absurd top npmJsr
      | library name => exact absurd top npmLibraries
      | allLibraries => exact absurd top npmLibraries
  | jsr =>
      cases other with
      | npm => exact absurd top.symm npmJsr
      | jsr => rfl
      | library name => exact absurd top jsrLibraries
      | allLibraries => exact absurd top jsrLibraries
  | library name =>
      cases other with
      | npm => exact absurd top.symm npmLibraries
      | jsr => exact absurd top.symm jsrLibraries
      | library otherName =>
          simp only [area, List.cons_append, List.cons.injEq] at same
          rw [same.2.1]
      | allLibraries => exact absurd (accepted.single otherMem _ mem) (by simp [isLibrary])
  | allLibraries =>
      cases other with
      | npm => exact absurd top.symm npmLibraries
      | jsr => exact absurd top.symm jsrLibraries
      | library name => exact absurd (accepted.single mem _ otherMem) (by simp [isLibrary])
      | allLibraries => rfl

/-- Two targets of an accepted list cover different paths. -/
theorem Accepted.eq_of_covers {targets : List Target} (accepted : Accepted targets)
    {target other : Target} (mem : target ∈ targets) (otherMem : other ∈ targets) {path : Path}
    (covers : target.Covers path) (otherCovers : other.Covers path) : target = other :=
  accepted.eq_of_area_isPrefix mem otherMem covers.area_isPrefix otherCovers.area_isPrefix

end DistDirectives.Target

/-! ## Expanded files are covered -/

namespace DistDirectives.Run

open Disk (IsProject HasPlainNames Spells)
open DistDirectives.Path (IsPlainName)

variable {disk : Disk} {root : Path} {base : Location} {sourceDir : Text}

theorem spells_librariesDirectory (root : Path) :
    Spells root (root.join Target.librariesDirectory) [Target.librariesDirectory] := by
  constructor
  · rw [Path.segments_join]
    have segments :
        (Path.ofText Target.librariesDirectory).segments = [Target.librariesDirectory] := by
      decide
    rw [segments]
  · intro name mem
    rw [List.mem_singleton.1 mem]
    decide

theorem subdirectories_eq_ok_iff {path : Path} {names : List Text} :
    Cache.subdirectories disk path = .ok names ↔ disk.listDirectories path = .ok names := by
  rw [Cache.subdirectories]
  cases disk.listDirectories path <;> simp

/-- The directories that are listed in a project have plain names. -/
theorem isPlainName_of_mem_subdirectories (project : IsProject disk root base)
    (plain : HasPlainNames disk base) {path : Path} {place names : List Text}
    (spells : Spells root path place)
    (listed : Cache.subdirectories disk path = .ok names) {name : Text}
    (mem : name ∈ names) : IsPlainName name := by
  obtain ⟨_, _, rfl⟩ :=
    (project.listDirectories_eq_ok_iff spells).1 (subdirectories_eq_ok_iff.1 listed)
  rcases Disk.mem_directoryNames_iff.1 mem with ⟨mode, held⟩
  exact plain place name _ held

/-- The registries of a library with a plain name are plain names themselves. -/
theorem isPlainName_of_mem_registriesIn (project : IsProject disk root base)
    (plain : HasPlainNames disk base) {library registry : Text} (libraryPlain : IsPlainName library)
    {registries : List Text} (listed : registriesIn disk root library = .ok registries)
    (mem : registry ∈ registries) : IsPlainName registry :=
  isPlainName_of_mem_subdirectories project plain
    ((spells_librariesDirectory root).join libraryPlain) listed mem

theorem isPlainName_of_mem_librariesIn (project : IsProject disk root base)
    (plain : HasPlainNames disk base) {library : Text} {libraries : List Text}
    (found : librariesIn disk root = .ok libraries) (mem : library ∈ libraries) :
    IsPlainName library :=
  isPlainName_of_mem_subdirectories project plain (spells_librariesDirectory root) found mem

/-- A path behind the output directory of a distribution is one of a distribution. -/
theorem isDistPath_of_liesIn {dist : Path} {directory : Text} {others place : List Text}
    (lies : Mapping.LiesIn dist (directory :: others) place) (top : directory ∈ distDirectories)
    (nonempty : others ++ place ≠ []) (plain : ∀ name ∈ others, IsPlainName name) :
    IsDistPath dist := by
  refine ⟨lies.relative, ?_, directory, top, others ++ place, nonempty, lies.segments⟩
  intro segment mem
  rw [lies.segments, List.mem_append, List.mem_cons] at mem
  rcases mem with (rfl | inner) | inPlace
  · exact isPlainName_of_mem_distDirectories top
  · exact plain segment inner
  · exact lies.plain segment inPlace

/-- A source in the place of the directory of sources of a library, and an output in that
of the build output of the library. -/
def IsWholeLibrary (sourceDir : Text) (source dist : Path) : Prop :=
  ∃ library registry,
    source.segments = (Path.ofText sourceDir).segments ++ [Mapping.librarySources, library] ∧
      dist.segments = [Target.librariesDirectory, library, registry, Mapping.outputDirectory]

/-- An output of a source for a target: it is covered by the target, and lies below the
distribution root unless the source is all there is of a library. -/
structure IsOutput (sourceDir : Text) (source : Path) (target : Target) (dist : Path) : Prop where
  isDist : IsDistPath dist
  covers : target.Covers dist
  encloses_iff : target.Encloses dist ↔ ¬ IsWholeLibrary sourceDir source dist

/-- Below a flat root everything is enclosed. -/
theorem isOutput_of_liesIn {source dist : Path} {target : Target} {top : Text} {place : List Text}
    (hasRoot : target.HasRoot [top, Mapping.outputDirectory])
    (lies : Mapping.LiesIn dist [top, Mapping.outputDirectory] place) (nonempty : place ≠ [])
    (known : top ∈ distDirectories) (flat : top ≠ Target.librariesDirectory) :
    IsOutput sourceDir source target dist := by
  refine ⟨isDistPath_of_liesIn lies known (by simp) (by simpa using isPlainName_outputDirectory),
    ⟨_, _, hasRoot, lies.segments⟩, ?_⟩
  apply iff_of_true ((hasRoot.encloses_iff lies.segments).2 nonempty)
  rintro ⟨library, registry, _, segments⟩
  rw [lies.segments, List.cons_append, List.cons.injEq] at segments
  exact flat segments.1

/-- A flat root is the build output of a distribution other than that of the libraries. -/
theorem exists_top_of_flatRoot {target : Target} {flatRoot : Text}
    (flat : target.flatRoot? = some flatRoot) :
    ∃ top ∈ distDirectories, top ≠ Target.librariesDirectory ∧
      target.HasRoot [top, Mapping.outputDirectory] ∧
      (Path.ofText flatRoot).isAbsolute = false ∧
      (Path.ofText flatRoot).segments = [top, Mapping.outputDirectory] := by
  cases target with
  | npm =>
      cases flat
      exact ⟨Target.npmDirectory, by decide, by decide, .npm, by decide, by decide⟩
  | jsr =>
      cases flat
      exact ⟨Target.jsrDirectory, by decide, by decide, .jsr, by decide, by decide⟩
  | library name => contradiction
  | allLibraries => contradiction

theorem isOutput_of_mem_forwardFlat {source dist : Path} {target : Target} {flatRoot : Text}
    {place : List Text} (stands : Mapping.StandsIn source (Path.ofText sourceDir) place)
    (nonempty : place ≠ []) (flat : target.flatRoot? = some flatRoot)
    (mem : dist ∈ Mapping.forwardFlat source sourceDir flatRoot) :
    IsOutput sourceDir source target dist := by
  obtain ⟨top, known, notLibraries, hasRoot, relative, segments⟩ := exists_top_of_flatRoot flat
  obtain ⟨inner, innerNonempty, lies⟩ :=
    Mapping.liesIn_of_mem_forwardFlat stands nonempty relative mem
  rw [segments] at lies
  exact isOutput_of_liesIn hasRoot lies innerNonempty known notLibraries

theorem isOutput_of_mem_forwardLibrary {source dist : Path} {target : Target}
    {library registry : Text}
    {registries place : List Text} (stands : Mapping.StandsIn source (Path.ofText sourceDir) place)
    (libraryPlain : IsPlainName library)
    (registriesPlain : ∀ registry ∈ registries, IsPlainName registry)
    (hasRoot : target.HasRoot [Target.librariesDirectory, library, registry,
      Mapping.outputDirectory])
    (mem : (registry, dist) ∈ Mapping.forwardLibrary source sourceDir library registries) :
    IsOutput sourceDir source target dist := by
  obtain ⟨registryMem, inner, lies, empty_iff⟩ := Mapping.liesIn_of_mem_forwardLibrary stands
    libraryPlain registriesPlain mem
  have rootPlain : ∀ name ∈ [library, registry, Mapping.outputDirectory], IsPlainName name := by
    simpa using ⟨libraryPlain, registriesPlain _ registryMem, isPlainName_outputDirectory⟩
  refine ⟨isDistPath_of_liesIn lies (by decide) (by simp) rootPlain,
    ⟨_, _, hasRoot, lies.segments⟩, ?_⟩
  rw [hasRoot.encloses_iff lies.segments, ne_eq, not_iff_not]
  constructor
  · intro none_left
    exact ⟨library, registry,
      empty_iff.1 none_left, by rw [lies.segments, none_left, List.append_nil]⟩
  · rintro ⟨_, _, _, segments⟩
    rw [lies.segments] at segments
    have lengths := congrArg List.length segments
    simpa using lengths

/-- A possible output of a source that stands in the source directory lies where its target
says. -/
theorem isOutput_of_isCandidate (project : IsProject disk root base)
    (plain : HasPlainNames disk base)
    {target : Target} (proper : target.IsProper) {source dist : Path} {place : List Text}
    (stands : Mapping.StandsIn source (Path.ofText sourceDir) place) (nonempty : place ≠ [])
    (candidate : Expansion.IsCandidate disk root sourceDir source target dist) :
    IsOutput sourceDir source target dist := by
  cases candidate with
  | flat flat mem => exact isOutput_of_mem_forwardFlat stands nonempty flat mem
  | library listed mem =>
      have libraryPlain := proper.isPlainName
      exact isOutput_of_mem_forwardLibrary stands libraryPlain
        (fun _ => isPlainName_of_mem_registriesIn project plain libraryPlain listed)
          (.library _ _) mem
  | allLibraries found known listed mem =>
      have libraryPlain := isPlainName_of_mem_librariesIn project plain found known
      exact isOutput_of_mem_forwardLibrary stands libraryPlain
        (fun _ => isPlainName_of_mem_registriesIn project plain libraryPlain listed)
          (.allLibraries _ _) mem

/-- What is known of the files that are expanded for a target. -/
theorem exists_isOutput_of_mem_filesOf (project : IsProject disk root base)
    (plain : HasPlainNames disk base) {sources : List SourceFile}
    (stand : ∀ source ∈ sources, ∃ place, place ≠ [] ∧
      Mapping.StandsIn source.path (Path.ofText sourceDir) place)
    {target : Target} (proper : target.IsProper) {files : List DistFile}
    (found : Expansion.filesOf disk root sourceDir sources target = .ok files) {file : DistFile}
    (mem : file ∈ files) :
    ∃ source ∈ sources, Expansion.IsCandidate disk root sourceDir source.path target file.path ∧
      IsOutput sourceDir source.path target file.path := by
  obtain ⟨_, _, source, sourceMem, candidate⟩ := Expansion.exists_of_mem_filesOf found mem
  obtain ⟨place, nonempty, stands⟩ := stand source sourceMem
  exact ⟨source, sourceMem, candidate,
    isOutput_of_isCandidate project plain proper stands nonempty candidate⟩

/-- The files of two targets of an accepted list, of which one was expanded before the other. -/
theorem pairwise_groups (project : IsProject disk root base) (plain : HasPlainNames disk base)
    {sources : List SourceFile} (stand : ∀ source ∈ sources, ∃ place, place ≠ [] ∧
      Mapping.StandsIn source.path (Path.ofText sourceDir) place)
    {targets : List Target} (accepted : Target.Accepted targets) {groups : List (List DistFile)}
    (found : List.Forall₂ (fun target files =>
      Expansion.filesOf disk root sourceDir sources target = .ok files) targets groups) :
    groups.Pairwise fun files others => ∃ target ∈ targets, ∃ other ∈ targets, target ≠ other ∧
      (∀ file ∈ files, target.Covers file.path) ∧ ∀ file ∈ others, other.Covers file.path := by
  have distinct : targets.Pairwise fun target other =>
    target ∈ targets ∧ other ∈ targets ∧ target ≠ other :=
    accepted.nodup.imp_of_mem fun mem otherMem differ => ⟨mem, otherMem, differ⟩
  have covers {target : Target} {files : List DistFile} (mem : target ∈ targets)
      (expanded : Expansion.filesOf disk root sourceDir sources target = .ok files) :
      ∀ file ∈ files, target.Covers file.path := by
    intro file fileMem
    obtain ⟨_, _, _, output⟩ := exists_isOutput_of_mem_filesOf project plain stand
      (accepted.proper target mem) expanded fileMem
    exact output.covers
  refine pairwise_of_forall₂ found distinct ?_
  rintro target other files others ⟨mem, otherMem, differ⟩ expanded otherExpanded
  exact ⟨target, mem, other, otherMem, differ, covers mem expanded, covers otherMem otherExpanded⟩

/-- No path is expanded twice for the targets of an accepted list. -/
theorem pairwise_flatten (project : IsProject disk root base) (plain : HasPlainNames disk base)
    {sources : List SourceFile} (stand : ∀ source ∈ sources, ∃ place, place ≠ [] ∧
      Mapping.StandsIn source.path (Path.ofText sourceDir) place)
    {targets : List Target} (accepted : Target.Accepted targets) {groups : List (List DistFile)}
    (found : List.Forall₂ (fun target files =>
      Expansion.filesOf disk root sourceDir sources target = .ok files) targets groups) :
    groups.flatten.Pairwise fun left right => left.path ≠ right.path := by
  rw [List.pairwise_flatten]
  constructor
  · intro files mem
    obtain ⟨target, _, expanded⟩ := exists_of_mem_forall₂ found mem
    exact Expansion.pairwise_filesOf expanded
  · refine (pairwise_groups project plain stand accepted found).imp ?_
    rintro files others ⟨target, mem, other, otherMem, differ, covers, otherCovers⟩ file
      fileMem otherFile
      otherFileMem same
    exact differ (accepted.eq_of_covers mem otherMem (covers file fileMem)
      (same ▸ otherCovers otherFile otherFileMem))

end DistDirectives.Run
