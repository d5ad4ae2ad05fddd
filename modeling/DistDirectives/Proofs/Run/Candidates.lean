import DistDirectives.Proofs.Path.Stripping
import DistDirectives.Proofs.Run.Coverage
import DistDirectives.Proofs.Run.Wildcard

/-!
# What a target is expanded into

A source that stands somewhere below a directory of sources has its outputs at the same
place below each of the distribution roots that belong to the directory. Expanding a
target yields those of them that are files, and nothing else. Each is yielded once, and
they stand in the order in which sources, roots and outputs first come to them.

For a library the roots belong to the directories that its directory holds. Their names
tell the roots apart, as long as no name on the disk has a backslash in it. For a flat
target there is one root. Either way the expansion succeeds exactly when the directory is
there (`expand_exact`).
-/

namespace DistDirectives.Run

open Disk (HasPlainNames)
open DistDirectives.Path (IsPlainName)
open Engine (smallEngine smallLocation)

namespace Expansion

/-! ## Candidates below roots -/

/-- A distribution root with the layout of the files below it. -/
structure Root where
  path : Path
  layout : Layout

/-- The root of a flat target. -/
def flatRoot (directory : Text) : Root := ⟨Path.ofText directory, .flat⟩

/-- The root of a library for a registry. -/
def registryRoot (library registry : Text) : Root :=
  ⟨Mapping.libraryRoot library registry, .library library registry⟩

/-- The candidates that sources below a directory have below roots, source by source and
for each source root by root. -/
def candidatesBelow (directory : Path) (roots : List Root) (label : Text)
    (sources : List SourceFile) : List DistFile :=
  sources.flatMap fun source =>
    match source.path.strip? directory.text with
    | none => []
    | some rest =>
      roots.flatMap fun root => (Mapping.outputs rest.text).map fun output =>
        { path := root.path.join output, layout := root.layout, target := label }

variable {disk : Disk} {root directory : Path} {roots : List Root} {label sourceDir : Text}
  {sources : List SourceFile}

theorem flatCandidates_eq (sourceDir directory label : Text) (sources : List SourceFile) :
    flatCandidates sourceDir directory label sources =
      candidatesBelow (Path.ofText sourceDir) [flatRoot directory] label sources := by
  rw [flatCandidates, candidatesBelow]
  congr 1
  funext source
  rw [Path.strip?_clean, Mapping.forwardFlat]
  cases source.path.strip? sourceDir with
  | none => rfl
  | some rest => simp [flatRoot]

theorem libraryCandidates_eq (sourceDir label library : Text) (registries : List Text)
    (sources : List SourceFile) :
    libraryCandidates sourceDir label library registries sources =
      candidatesBelow (Mapping.librarySourceRoot sourceDir library)
        (registries.map (registryRoot library)) label sources := by
  rw [libraryCandidates, candidatesBelow]
  congr 1
  funext source
  rw [Mapping.forwardLibrary]
  cases source.path.strip? (Mapping.librarySourceRoot sourceDir library).text with
  | none => rfl
  | some rest =>
      simp only [List.flatMap_map, List.map_flatMap, List.map_map, registryRoot]
      rfl

/-- A file is the output of a source at the same place below a root. -/
structure IsOutputOf (directory : Path) (roots : List Root) (label : Text) (source : Path)
    (file : DistFile) : Prop where
  place : ∃ rest, source.GoesOn directory rest ∧ ∃ output ∈ Mapping.outputs rest.text,
    ∃ root ∈ roots, file.layout = root.layout ∧ file.path = root.path.join output
  labelled : file.target = label

theorem mem_candidatesBelow_iff {file : DistFile} :
    file ∈ candidatesBelow directory roots label sources ↔
      ∃ source ∈ sources, IsOutputOf directory roots label source.path file := by
  rw [candidatesBelow, List.mem_flatMap]
  refine exists_congr fun source => and_congr_right fun _ => ?_
  constructor
  · intro mem
    split at mem
    · contradiction
    rename_i rest stripped
    obtain ⟨root, rootMem, mem⟩ := List.mem_flatMap.1 mem
    obtain ⟨output, outputMem, rfl⟩ := List.mem_map.1 mem
    exact ⟨⟨rest, Path.strip?_text_eq_some_iff.1 stripped, output, outputMem, root, rootMem,
      rfl, rfl⟩, rfl⟩
  · rintro ⟨⟨rest, goesOn, output, outputMem, root, rootMem, layout_eq, path_eq⟩, rfl⟩
    rw [Path.strip?_text_eq_some_iff.2 goesOn]
    refine List.mem_flatMap.2 ⟨root, rootMem, List.mem_map.2 ⟨output, outputMem, ?_⟩⟩
    cases file
    simp_all

/-! ## First occurrences -/

/-- Where a path belongs to one file only, this file is kept. -/
theorem mem_distinct_iff {seen : List Path} {files : List DistFile} {file : DistFile}
    (single : ∀ one ∈ files, ∀ other ∈ files, one.path = other.path → one = other) :
    file ∈ distinct seen files ↔ file ∈ files ∧ file.path ∉ seen := by
  refine ⟨mem_of_mem_distinct, ?_⟩
  induction files generalizing seen with
  | nil => simp
  | cons first files ih =>
      have later {seen : List Path} := @ih seen fun one mem other otherMem =>
        single one (by simp [mem]) other (by simp [otherMem])
      rintro ⟨mem, unseen⟩
      rw [distinct]
      by_cases same : file.path = first.path
      · obtain rfl := single file mem first (by simp) same
        simp [unseen]
      · have inFiles : file ∈ files := (List.mem_cons.1 mem).resolve_left fun eq => same (eq ▸ rfl)
        split
        · exact later ⟨inFiles, unseen⟩
        · exact List.mem_cons_of_mem _ (later ⟨inFiles, by simp [same, unseen]⟩)

/-- Files are kept in the order in which their paths first occur. -/
theorem pairwise_idxOf_distinct (seen : List Path) (files : List DistFile) :
    (distinct seen files).Pairwise fun file other =>
      (files.map (·.path)).idxOf file.path < (files.map (·.path)).idxOf other.path := by
  induction files generalizing seen with
  | nil => exact .nil
  | cons first files ih =>
      -- behind the first file its path does not occur again, so positions are shifted by one
      have shifted (seen : List Path) (known : first.path ∈ seen) :
          (distinct seen files).Pairwise fun file other =>
            ((first :: files).map (·.path)).idxOf file.path <
              ((first :: files).map (·.path)).idxOf other.path := by
        refine (ih seen).imp_of_mem fun {file other} mem otherMem lower => ?_
        have differs {file : DistFile} (mem : file ∈ distinct seen files) :
            first.path ≠ file.path :=
          fun same => (mem_of_mem_distinct mem).2 (same ▸ known)
        rw [List.map_cons, List.idxOf_cons_ne _ (differs mem),
          List.idxOf_cons_ne _ (differs otherMem)]
        exact Nat.succ_lt_succ lower
      rw [distinct]
      split
      · rename_i known
        exact shifted seen (by simpa using known)
      · refine List.pairwise_cons.2 ⟨fun other mem => ?_, shifted _ (by simp)⟩
        have differs : first.path ≠ other.path :=
          fun same => (mem_of_mem_distinct mem).2 (by simp [same])
        rw [List.map_cons, List.idxOf_cons_self, List.idxOf_cons_ne _ differs]
        exact Nat.succ_pos _

/-! ## Expansions -/

/-- The files that are the outputs of sources at the same place below roots, each of them once
and in the order of the first candidates with their paths. -/
structure IsExpansion (disk : Disk) (root directory : Path) (roots : List Root) (label : Text)
    (sources : List SourceFile) (files : List DistFile) : Prop where
  mem_iff : ∀ file, file ∈ files ↔ disk.isFile (root.join file.path.text) = true ∧
    ∃ source ∈ sources, IsOutputOf directory roots label source.path file
  nodup : (files.map (·.path)).Nodup
  ordered : files.Pairwise fun file other =>
    ((candidatesBelow directory roots label sources).map (·.path)).idxOf file.path <
      ((candidatesBelow directory roots label sources).map (·.path)).idxOf other.path

/-- There is one expansion. -/
theorem IsExpansion.unique {files others : List DistFile}
    (expansion : IsExpansion disk root directory roots label sources files)
    (another : IsExpansion disk root directory roots label sources others) : others = files := by
  have antisymm : Std.Antisymm fun file other : DistFile =>
      ((candidatesBelow directory roots label sources).map (·.path)).idxOf file.path <
        ((candidatesBelow directory roots label sources).map (·.path)).idxOf other.path :=
    ⟨fun _ _ lower upper => absurd upper (Nat.lt_asymm lower)⟩
  exact another.ordered.eq_of_mem_iff expansion.ordered fun {file} =>
    (another.mem_iff file).trans (expansion.mem_iff file).symm

/-- No path lies below roots of different layouts. -/
def AreApart (roots : List Root) : Prop :=
  ∀ one ∈ roots, ∀ other ∈ roots, ∀ output another,
    one.path.join output = other.path.join another → one.layout = other.layout

theorem isExpansion_existing (apart : AreApart roots) :
    IsExpansion disk root directory roots label sources
      (existing disk root (candidatesBelow directory roots label sources)) := by
  have single : ∀ file ∈ candidatesBelow directory roots label sources,
      ∀ other ∈ candidatesBelow directory roots label sources, file.path = other.path →
        file = other := by
    intro file mem other otherMem same
    obtain ⟨_, _, ⟨_, _, output, _, one, oneMem, layout_eq, path_eq⟩, labelled⟩ :=
      mem_candidatesBelow_iff.1 mem
    obtain ⟨_, _, ⟨_, _, another, _, two, twoMem, otherLayout_eq, otherPath_eq⟩, otherLabelled⟩ :=
      mem_candidatesBelow_iff.1 otherMem
    have layouts :=
      apart one oneMem two twoMem output another (by rw [← path_eq, ← otherPath_eq, same])
    cases file
    cases other
    simp_all
  refine ⟨fun file => ?_, ?_, (pairwise_idxOf_distinct [] _).filter _⟩
  · rw [existing, List.mem_filter, mem_distinct_iff single, ← mem_candidatesBelow_iff]
    simp [and_comm]
  · rw [List.Nodup, List.pairwise_map]
    exact (pairwise_distinct [] _).filter _

theorem eq_existing_iff (apart : AreApart roots) {files : List DistFile} :
    files = existing disk root (candidatesBelow directory roots label sources) ↔
      IsExpansion disk root directory roots label sources files :=
  ⟨fun same => same ▸ isExpansion_existing apart,
    fun expansion => (isExpansion_existing apart).unique expansion⟩

theorem areApart_flatRoot (directory : Text) : AreApart [flatRoot directory] := by
  intro one oneMem other otherMem _ _ _
  rw [List.mem_singleton.1 oneMem, List.mem_singleton.1 otherMem]

/-- A path names the registry that it belongs to. -/
theorem areApart_registryRoots {library : Text} (libraryPlain : IsPlainName library)
    {registries : List Text} (plain : ∀ registry ∈ registries, IsPlainName registry) :
    AreApart (registries.map (registryRoot library)) := by
  intro one oneMem other otherMem output another same
  obtain ⟨registry, mem, rfl⟩ := List.mem_map.1 oneMem
  obtain ⟨second, secondMem, rfl⟩ := List.mem_map.1 otherMem
  have segments := congrArg Path.segments same
  simp only [registryRoot, Path.segments_join,
    Mapping.segments_libraryRoot libraryPlain.toIsSegment (plain registry mem).toIsSegment,
    Mapping.segments_libraryRoot libraryPlain.toIsSegment
      (plain second secondMem).toIsSegment] at segments
  obtain rfl : registry = second := by simp_all
  rfl

/-! ## Targets -/

variable {cache : Cache} {files : List DistFile}

theorem registriesIn_eq_ok_iff {library : Text} {registries : List Text} :
    registriesIn disk root library = .ok registries ↔
      disk.Lists ((root.join Target.librariesDirectory).join library) registries := by
  rw [registriesIn, subdirectories_eq_ok_iff, Disk.listDirectories_eq_ok_iff_lists]

/-- The directories in a directory have plain names where all names are plain. -/
theorem isPlainName_of_lists (plain : HasPlainNames disk []) {path : Path} {names : List Text}
    (lists : disk.Lists path names) : ∀ name ∈ names, IsPlainName name := by
  obtain ⟨place, mode, -, -, mem_iff⟩ := lists.complete
  intro name mem
  obtain ⟨inner, held⟩ := (mem_iff name).1 mem
  exact plain place name _ held

theorem filesOf_library_iff (plain : HasPlainNames disk []) {library : Text}
    (libraryPlain : IsPlainName library) :
    filesOf disk root sourceDir sources (.library library) = .ok files ↔
      ∃ registries, disk.Lists ((root.join Target.librariesDirectory).join library) registries ∧
        IsExpansion disk root (Mapping.librarySourceRoot sourceDir library)
          (registries.map (registryRoot library)) (Target.library library).text sources files := by
  rw [filesOf_library_eq_ok_iff]
  refine exists_congr fun registries => ?_
  rw [registriesIn_eq_ok_iff, libraryCandidates_eq]
  refine and_congr_right fun lists => ?_
  exact eq_existing_iff (areApart_registryRoots libraryPlain (isPlainName_of_lists plain lists))

theorem filesOf_flat_iff {target : Target} {directoryText : Text}
    (flat : target.flatRoot? = some directoryText) :
    filesOf disk root sourceDir sources target = .ok files ↔
      disk.isDirectory (root.join directoryText) = true ∧
        IsExpansion disk root (Path.ofText sourceDir)
          [flatRoot directoryText] target.text sources files := by
  simp only [filesOf_eq_ok_iff, candidatesOf, flat]
  rw [← Disk.requireDirectory_eq_ok_iff_isDirectory,
    ← eq_existing_iff (areApart_flatRoot directoryText),
    ← flatCandidates_eq]
  cases disk.requireDirectory (root.join directoryText) with
  | error error => simp
  | ok => simp

/-- What a target is expanded to, whatever is remembered of the disk. A library is expanded
exactly when its directory can be listed, and then below the output directories of the
directories that it holds. A flat target is expanded exactly when its root is there, and then
below that. Nothing on a disk is named by dots or with a slash, so names are plain when
there is no backslash in them. -/
theorem expand_exact (sound : cache.Sound disk root) (plain : HasPlainNames disk [])
    (sourceDir : Text)
    (sources : List SourceFile) :
    (∀ written library, Target.read written = .ok (.library library) →
      ((∃ files, (expand disk cache sourceDir (.library library) sources).1 = .ok files) ↔
        disk.IsListable ((root.join Target.librariesDirectory).join library)) ∧
        ∀ files, (expand disk cache sourceDir (.library library) sources).1 = .ok files ↔
          ∃ registries, disk.Lists ((root.join Target.librariesDirectory).join library) registries ∧
            IsExpansion disk root (Mapping.librarySourceRoot sourceDir library)
              (registries.map (registryRoot library)) written sources files) ∧
      ∀ target directory, target.flatRoot? = some directory →
        ((∃ files, (expand disk cache sourceDir target sources).1 = .ok files) ↔
          disk.isDirectory (root.join directory) = true) ∧
          ∀ files, (expand disk cache sourceDir target sources).1 = .ok files ↔
            disk.isDirectory (root.join directory) = true ∧
              IsExpansion disk root (Path.ofText sourceDir)
                [flatRoot directory] target.text sources files := by
  constructor
  · intro written library reads
    obtain ⟨proper, rfl⟩ := Target.read_eq_ok_iff.1 reads
    have libraryPlain := proper.isPlainName
    rw [(expand_eq sound _).1]
    refine ⟨⟨?_, fun isListable => ?_⟩, fun files => filesOf_library_iff plain libraryPlain⟩
    · rintro ⟨files, expanded⟩
      obtain ⟨registries, lists, -⟩ := (filesOf_library_iff plain libraryPlain).1 expanded
      exact Disk.isListable_iff_exists_lists.2 ⟨registries, lists⟩
    · obtain ⟨registries, lists⟩ := Disk.isListable_iff_exists_lists.1 isListable
      exact ⟨_, filesOf_library_eq_ok_iff.2 ⟨registries, registriesIn_eq_ok_iff.2 lists, rfl⟩⟩
  · intro target directory flat
    rw [(expand_eq sound _).1]
    refine ⟨⟨?_, fun isDirectory => ?_⟩, fun files => filesOf_flat_iff flat⟩
    · rintro ⟨files, expanded⟩
      exact ((filesOf_flat_iff flat).1 expanded).1
    · exact ⟨_, (filesOf_flat_iff flat).2
        ⟨isDirectory, isExpansion_existing (areApart_flatRoot directory)⟩⟩

/-- A project with a library, another one whose name goes on, and a flat root. In the library
a link stands beside the directory of the one registry. -/
def registryDisk : Disk :=
  let file := Node.file (Utf8.encode "old\n".toList) Node.fileMode
  [["dist-libs"], ["dist-libs", "sdk"], ["dist-libs", "sdk", "npm"],
    ["dist-libs", "sdk", "npm", "bin"],
    ["dist-libs", "sdk-extra"], ["dist-npm"], ["dist-npm", "bin"]].foldl
    (fun disk names => disk.store (smallLocation names) (.directory Node.directoryMode))
    (Disk.empty.store (smallLocation []) (.directory Node.directoryMode))
    |>.store (smallLocation ["dist-libs", "sdk", "jsr"]) (.link "npm".toList)
    |>.store (smallLocation ["dist-libs", "sdk", "npm", "bin", "x.js"]) file
    |>.store (smallLocation ["dist-libs", "sdk", "npm", "bin", "x.ts"]) (.link "x.js".toList)
    |>.store (smallLocation ["dist-npm", "bin", "a.d.ts"]) file

/-- Sources of the library, which have their outputs in common, of the other one, and of none. -/
def registrySources : List SourceFile :=
  ["src/a.d.ts", "src/libs/sdk-extra/x.ts", "src/libs/sdk/x.mts", "src/libs/sdk/x.ts"].map
    fun path =>
    ⟨Path.ofText path.toList, []⟩

/-- The files of the library, of which the second is a link, and the one below the flat root. -/
theorem expand_exact_registries :
    (∃ registries, registryDisk.Lists (Path.ofText "/w/dist-libs/sdk".toList) registries ∧
      IsExpansion registryDisk smallEngine.root (Path.ofText "src/libs/sdk".toList)
        (registries.map (registryRoot "sdk".toList)) "dist-libs/sdk".toList registrySources
        [⟨Path.ofText "dist-libs/sdk/npm/bin/x.js".toList, .library "sdk".toList "npm".toList,
            "dist-libs/sdk".toList⟩,
          ⟨Path.ofText "dist-libs/sdk/npm/bin/x.ts".toList, .library "sdk".toList "npm".toList,
            "dist-libs/sdk".toList⟩]) ∧
      IsExpansion registryDisk smallEngine.root (Path.ofText "src".toList)
        [flatRoot "dist-npm/bin".toList]
        "dist-npm".toList registrySources
        [⟨Path.ofText "dist-npm/bin/a.d.ts".toList, .flat, "dist-npm".toList⟩] := by
  have sound := Cache.sound_fresh registryDisk smallEngine.root []
  have plain : HasPlainNames registryDisk [] := Disk.hasPlainNames_of_entries _ (by decide +kernel)
  obtain ⟨ofLibrary, ofRoot⟩ := expand_exact sound plain "src".toList registrySources
  exact ⟨((ofLibrary "dist-libs/sdk".toList _ rfl).2 _).1 (by decide +kernel),
    (((ofRoot .npm _ rfl).2 _).1 (by decide +kernel)).2⟩

end Expansion

end DistDirectives.Run
