import DistDirectives.Mapping
import DistDirectives.Proofs.Mapping.Names
import DistDirectives.Proofs.Target

/-!
# Tracing distribution files back to their sources

The forward mappings keep the place of a source below its directory and change at
most its name; the reverse mapping does the same the other way. So a distribution
file is traced back to a source exactly when the names are, which
`mem_reverse_iff_of_forward` says for both layouts and every path: the only outputs
that are not traced back are the `.d.ts` outputs of scripts such as `x.d.mts`.
-/

namespace DistDirectives.Mapping

open DistDirectives.Path

/-- A path whose name ends as the names of declarations do. -/
def IsDeclaration (path : Path) : Prop := declarationEnding <:+ path.text

instance (path : Path) : Decidable (IsDeclaration path) :=
  inferInstanceAs (Decidable (declarationEnding <:+ path.text))

/-! ## Places below a directory -/

theorem outputs_text {rest : Path} {directories : List Text} {name : Text}
    (relative : rest.isAbsolute = false) (segments : rest.segments = directories ++ [name]) :
    outputs rest.text =
      (outputs name).map fun output => Text.joinWith '/' (directories ++ [output]) := by
  have proper := @isSegment_of_mem_segments rest name (by simp [segments])
  rw [text_of_relative relative, segments, outputs_joinWith directories proper.no_slash]

/-- The segments of a place below a directory, written behind the directory. -/
theorem segments_join_joinWith (root : Path) {place : List Text}
    (proper : ∀ segment ∈ place, IsSegment segment) :
    (root.join (Text.joinWith '/' place)).segments = root.segments ++ place := by
  rw [segments_join, segments_ofText_joinWith proper]

theorem isAbsolute_join_joinWith (root : Path) {place : List Text}
    (proper : ∀ segment ∈ place, IsSegment segment) :
    (root.join (Text.joinWith '/' place)).isAbsolute = root.isAbsolute :=
  isAbsolute_join_of_relative root (isAbsolute_ofText_joinWith proper)

/-- A path that goes on behind a directory is a place written behind it. -/
theorem eq_join_joinWith_iff {root path : Path} {place : List Text}
    (proper : ∀ segment ∈ place, IsSegment segment) :
    path = root.join (Text.joinWith '/' place) ↔
      path.isAbsolute = root.isAbsolute ∧ path.segments = root.segments ++ place := by
  constructor
  · rintro rfl
    exact ⟨isAbsolute_join_joinWith root proper, segments_join_joinWith root proper⟩
  · rintro ⟨absolute, segments⟩
    apply ext_segments
    · rw [absolute, isAbsolute_join_joinWith root proper]
    · rw [segments, segments_join_joinWith root proper]

/-! ## Origins -/

/-- The names of a distribution file mirror a place below a directory of sources: the library is
named on both sides, and behind the build output stand the names of the place. -/
inductive Mirrors (sourceDir : Text) (place : List Text) : List Text → Path → Prop
  | library {library registry : Text} (traced : registry ∈ tracedRegistries) :
      Mirrors sourceDir place
        (Target.librariesDirectory :: library :: registry :: outputDirectory :: place)
        (librarySourceRoot sourceDir library)
  | flat {root : Text} (isRoot : root = Target.npmDirectory ∨ root = Target.jsrDirectory) :
      Mirrors sourceDir place (root :: outputDirectory :: place) (ofText sourceDir)

theorem flat?_eq_some_iff {names place : List Text} {root : Path} {sourceDir : Text} :
    originOf?.flat? sourceDir names = some (root, place) ↔
      place ≠ [] ∧ root = ofText sourceDir ∧
        ∃ top, (top = Target.npmDirectory ∨ top = Target.jsrDirectory) ∧
          names = top :: outputDirectory :: place := by
  rw [originOf?.flat?.eq_def]
  constructor
  · intro found
    split at found
    · split at found
      · rename_i flat
        cases found
        rcases flat with ⟨isRoot, rfl⟩
        exact ⟨by simp, rfl, _, isRoot, rfl⟩
      · contradiction
    · contradiction
  · rintro ⟨nonempty, rfl, top, isRoot, rfl⟩
    obtain ⟨first, rest, rfl⟩ := List.exists_cons_of_ne_nil nonempty
    simp [isRoot]

/-- A distribution file originates from a directory exactly when its names mirror a place below it
that has a name. -/
theorem originOf?_eq_some_iff {dist root : Path} {sourceDir : Text} {place : List Text} :
    originOf? dist sourceDir = some (root, place) ↔
      place ≠ [] ∧ Mirrors sourceDir place dist.segments root := by
  rw [originOf?]
  generalize dist.segments = names
  constructor
  · intro found
    split at found
    · split at found
      · rename_i isLibrary
        cases found
        rcases isLibrary with ⟨rfl, traced, rfl⟩
        exact ⟨by simp, .library traced⟩
      · obtain ⟨nonempty, rfl, _, isRoot, split⟩ := flat?_eq_some_iff.1 found
        exact ⟨nonempty, split ▸ .flat isRoot⟩
    · obtain ⟨nonempty, rfl, _, isRoot, rfl⟩ := flat?_eq_some_iff.1 found
      exact ⟨nonempty, .flat isRoot⟩
  · rintro ⟨nonempty, mirrors⟩
    cases mirrors with
    | library traced =>
        obtain ⟨first, rest, rfl⟩ := List.exists_cons_of_ne_nil nonempty
        simp [traced]
    | @flat top isRoot =>
        have notLibraries : top ≠ Target.librariesDirectory := by
          rcases isRoot with rfl | rfl <;> decide
        have found : originOf?.flat? sourceDir (top :: outputDirectory :: place) =
            some (ofText sourceDir, place) := flat?_eq_some_iff.2 ⟨nonempty, rfl, top, isRoot, rfl⟩
        split
        · rename_i split
          rw [if_neg fun library => notLibraries ((List.cons.inj split).1.trans library.1),
            ← split, found]
        · exact found

theorem originOf?_of_flat {dist : Path} {sourceDir root : Text} {place : List Text}
    (flat : root = Target.npmDirectory ∨ root = Target.jsrDirectory) (nonempty : place ≠ [])
    (segments : dist.segments = root :: outputDirectory :: place) :
    originOf? dist sourceDir = some (ofText sourceDir, place) :=
  originOf?_eq_some_iff.2 ⟨nonempty, segments ▸ .flat flat⟩

theorem originOf?_of_library {dist : Path} {sourceDir library registry : Text}
    {place : List Text} (traced : registry ∈ tracedRegistries) (nonempty : place ≠ [])
    (segments : dist.segments =
      Target.librariesDirectory :: library :: registry :: outputDirectory :: place) :
    originOf? dist sourceDir = some (librarySourceRoot sourceDir library, place) :=
  originOf?_eq_some_iff.2 ⟨nonempty, segments ▸ .library traced⟩

/-- The names of a place are names of the distribution file that mirrors it. -/
theorem Mirrors.subset {sourceDir : Text} {place names : List Text} {root : Path}
    (mirrors : Mirrors sourceDir place names root) : place ⊆ names := by
  cases mirrors <;> simp +contextual [List.subset_def]

section

variable {dist root : Path} {sourceDir output : Text} {directories : List Text}

/-- A file with candidates has an origin, and a name there. -/
theorem exists_origin_of_reverse (nonempty : reverse dist sourceDir ≠ []) :
    ∃ root directories name, originOf? dist sourceDir = some (root, directories ++ [name]) := by
  rw [reverse] at nonempty
  split at nonempty
  · contradiction
  · rename_i root place origin
    rw [← List.dropLast_concat_getLast (originOf?_eq_some_iff.1 origin).1] at origin
    exact ⟨root, _, _, origin⟩

theorem isSegment_of_origin
    (origin : originOf? dist sourceDir = some (root, directories ++ [output])) :
    ∀ name ∈ directories ++ [output], IsSegment name := fun _ mem =>
  isSegment_of_mem_segments ((originOf?_eq_some_iff.1 origin).2.subset mem)

/-- The names of a candidate are those of the file but for the last one. -/
theorem isSegment_of_renamed
    (origin : originOf? dist sourceDir = some (root, directories ++ [output]))
    {name : Text} (mem : name ∈ sources output) :
    ∀ other ∈ directories ++ [name], IsSegment other := by
  have proper := isSegment_of_origin origin
  intro other otherMem
  rcases List.mem_append.1 otherMem with inDirectories | isName
  · exact proper other (List.mem_append_left _ inDirectories)
  · exact List.mem_singleton.1 isName ▸ isSegment_of_mem_sources (proper output (by simp)) mem

theorem reverse_of_origin
    (origin : originOf? dist sourceDir = some (root, directories ++ [output])) :
    reverse dist sourceDir =
      (sources output).map fun name => root.join (Text.joinWith '/' (directories ++ [name])) := by
  have proper := isSegment_of_origin origin output (by simp)
  simp only [reverse, origin, sources_joinWith directories proper.no_slash, List.map_map]
  rfl

/-- A distribution file is traced back to the paths behind its origin that have its place there, but
for the name, which is one of its source names. -/
theorem mem_reverse_iff_of_origin {source : Path}
    (origin : originOf? dist sourceDir = some (root, directories ++ [output])) :
    source ∈ reverse dist sourceDir ↔
      source.isAbsolute = root.isAbsolute ∧ ∃ name ∈ sources output,
        source.segments = root.segments ++ (directories ++ [name]) := by
  rw [reverse_of_origin origin, List.mem_map]
  constructor
  · rintro ⟨name, mem, rfl⟩
    have proper := isSegment_of_renamed origin mem
    exact ⟨isAbsolute_join_joinWith root proper, name, mem, segments_join_joinWith root proper⟩
  · rintro ⟨absolute, name, mem, segments⟩
    have proper := isSegment_of_renamed origin mem
    exact ⟨name, mem, ((eq_join_joinWith_iff proper).2 ⟨absolute, segments⟩).symm⟩

end

/-- A file below an origin is traced back to the sources beside which it would stand
under one of its source names. -/
theorem mem_reverse_iff {dist source root : Path} {sourceDir name output : Text}
    {directories : List Text}
    (origin : originOf? dist sourceDir = some (root, directories ++ [output]))
    (absolute : source.isAbsolute = root.isAbsolute)
    (segments : source.segments = root.segments ++ (directories ++ [name])) :
    source ∈ reverse dist sourceDir ↔ name ∈ sources output := by
  rw [mem_reverse_iff_of_origin origin]
  constructor
  · rintro ⟨-, other, mem, same⟩
    rw [segments] at same
    simp only [List.append_cancel_left_eq, List.cons.injEq, and_true] at same
    exact same ▸ mem
  · exact fun mem => ⟨absolute, name, mem, segments⟩

/-! ## Both layouts -/

/-- What the forward mappings share: an output stands below a root where its source
stands below a directory, and is traced back as its name is. -/
theorem mem_reverse_iff_of_mem_outputs {source directory root rest dist : Path}
    {sourceDir file : Text}
    (absolute : source.isAbsolute = directory.isAbsolute) (relative : rest.isAbsolute = false)
    (nonempty : rest.segments ≠ [])
    (segments : source.segments = directory.segments ++ rest.segments)
    (mem : file ∈ outputs rest.text) (dist_eq : dist = root.join file)
    (origin : ∀ place, place ≠ [] → dist.segments = root.segments ++ place →
      originOf? dist sourceDir = some (directory, place)) :
    source ∈ reverse dist sourceDir ↔ (IsDeclaration dist → IsDeclaration source) := by
  obtain ⟨directories, name, split⟩ := (List.eq_nil_or_concat rest.segments).resolve_left nonempty
  rw [List.concat_eq_append] at split
  have restProper : ∀ segment ∈ rest.segments, IsSegment segment :=
    fun _ mem => isSegment_of_mem_segments mem
  simp only [split, List.mem_append, List.mem_singleton, or_imp, forall_and,
    forall_eq] at restProper
  rcases restProper with ⟨directoriesProper, nameProper⟩
  rw [outputs_text relative split, List.mem_map] at mem
  rcases mem with ⟨output, outputMem, rfl⟩
  have outputProper := isSegment_of_mem_outputs nameProper outputMem
  have placeProper : ∀ segment ∈ directories ++ [output], IsSegment segment := by
    simpa [or_imp, forall_and] using ⟨directoriesProper, outputProper⟩
  have dist_segments : dist.segments = root.segments ++ (directories ++ [output]) := by
    rw [dist_eq, segments_join_joinWith root placeProper]
  have traced := mem_reverse_iff (origin _ (by simp) dist_segments) absolute
    (split ▸ segments)
  rw [traced, mem_sources_iff nameProper.no_slash outputMem]
  have distEnding := @isSuffix_text_iff dist (root.segments ++ directories) output declarationEnding
    (by rw [dist_segments, List.append_assoc]) (by decide)
  have sourceEnding := @isSuffix_text_iff source (directory.segments ++ directories) name
    declarationEnding (by rw [segments, split, List.append_assoc]) (by decide)
  rw [IsDeclaration, IsDeclaration, distEnding, sourceEnding]

theorem segments_libraryRoot {library registry : Text} (libraryProper : IsSegment library)
    (registryProper : IsSegment registry) :
    (libraryRoot library registry).segments =
      [Target.librariesDirectory, library, registry, outputDirectory] := by
  have libraries : (ofText Target.librariesDirectory).segments = [Target.librariesDirectory] := by
    decide
  have output : (ofText outputDirectory).segments = [outputDirectory] := by decide
  rw [libraryRoot, segments_join, segments_join_segment _ registryProper,
    segments_join_segment _ libraryProper, libraries, output]
  rfl

/-- The possible distribution files of a source are traced back to it, in the flat
layout and in the layout of libraries, except for a declaration that was emitted for
a source which is none. -/
theorem mem_reverse_iff_of_forward (source : Path) (sourceDir : Text) :
    (source.LiesBelow (ofText sourceDir) →
      ∀ flatRoot ∈ ["dist-npm/bin".toList, "dist-jsr/bin".toList],
        ∀ dist ∈ forwardFlat source sourceDir flatRoot,
          (source ∈ reverse dist sourceDir ↔ (IsDeclaration dist → IsDeclaration source))) ∧
    ∀ written library, Target.read written = .ok (.library library) →
      source.LiesBelow (librarySourceRoot sourceDir library) →
        ∀ registries, ∀ registry ∈ ["npm".toList, "jsr".toList], ∀ dist,
          (registry, dist) ∈ forwardLibrary source sourceDir library registries →
            (source ∈ reverse dist sourceDir ↔ (IsDeclaration dist → IsDeclaration source)) := by
  constructor
  · intro below flatRoot flatMem dist distMem
    rcases below.strip with ⟨rest, stripped, relative, nonempty, segments⟩
    simp only [forwardFlat, stripped, List.mem_map] at distMem
    rcases distMem with ⟨file, fileMem, rfl⟩
    apply mem_reverse_iff_of_mem_outputs below.1 relative nonempty segments fileMem rfl
    intro place placeNonempty dist_segments
    simp only [List.mem_cons, List.not_mem_nil, or_false] at flatMem
    rcases flatMem with rfl | rfl
    · exact originOf?_of_flat (.inl rfl) placeNonempty dist_segments
    · exact originOf?_of_flat (.inr rfl) placeNonempty dist_segments
  · intro written library read below registries registry registryMem dist distMem
    have libraryProper := (Target.read_eq_ok_iff.1 read).1.isPlainName.toIsSegment
    have registryProper : IsSegment registry := by
      simp only [List.mem_cons, List.not_mem_nil, or_false] at registryMem
      rcases registryMem with rfl | rfl <;> exact ⟨by decide, by decide, by decide, by decide⟩
    rw [← ofText_text (librarySourceRoot sourceDir library)] at below
    rcases below.strip with ⟨rest, stripped, relative, nonempty, segments⟩
    simp only [forwardLibrary, stripped, List.mem_flatMap, List.mem_map, Prod.mk.injEq] at distMem
    rcases distMem with ⟨_, _, file, fileMem, rfl, rfl⟩
    rw [ofText_text] at below segments
    apply mem_reverse_iff_of_mem_outputs below.1 relative nonempty segments fileMem rfl
    intro place placeNonempty dist_segments
    rw [segments_libraryRoot libraryProper registryProper] at dist_segments
    exact originOf?_of_library registryMem placeNonempty dist_segments

/-- A script in a directory with a dot in its name is found again from its output, in
both layouts and for a source directory with a leading dot. -/
theorem mem_reverse_of_nested_script :
    (ofText "lib/libs/sdk/a.b/x.d.mts".toList).LiesBelow (ofText "./lib".toList) ∧
      ofText "lib/libs/sdk/a.b/x.d.mts".toList ∈
        reverse (ofText "dist-npm/bin/libs/sdk/a.b/x.d.js".toList) "./lib".toList ∧
      ofText "lib/libs/sdk/a.b/x.d.mts".toList ∈
        reverse (ofText "dist-libs/sdk/jsr/bin/a.b/x.d.js".toList) "./lib".toList := by
  have below : (ofText "lib/libs/sdk/a.b/x.d.mts".toList).LiesBelow (ofText "./lib".toList) :=
    ⟨by decide, ["libs", "sdk", "a.b", "x.d.mts"].map String.toList, by decide, by decide⟩
  have inLibrary : (ofText "lib/libs/sdk/a.b/x.d.mts".toList).LiesBelow
      (librarySourceRoot "./lib".toList "sdk".toList) :=
    ⟨by decide, ["a.b", "x.d.mts"].map String.toList, by decide, by decide⟩
  have traced :=
    mem_reverse_iff_of_forward (ofText "lib/libs/sdk/a.b/x.d.mts".toList) "./lib".toList
  have flat := traced.1 below "dist-npm/bin".toList (by decide)
    (ofText "dist-npm/bin/libs/sdk/a.b/x.d.js".toList) (by decide)
  have read : Target.read "dist-libs/sdk".toList = .ok (.library "sdk".toList) :=
    Target.read_eq_ok_iff.2 ⟨⟨by decide, by decide⟩, by decide⟩
  have library := traced.2 "dist-libs/sdk".toList "sdk".toList read inLibrary
    ["jsr".toList] "jsr".toList (by decide)
    (ofText "dist-libs/sdk/jsr/bin/a.b/x.d.js".toList) (by decide)
  exact ⟨below, flat.2 fun declared => absurd declared (by decide),
    library.2 fun declared => absurd declared (by decide)⟩

/-- A source `x.d.mts` can be built into `x.d.ts`, from which only `x.ts`, `x.js` and
`x.d.ts` are looked for. -/
theorem not_mem_reverse_of_module_declaration :
    (ofText "src/x.d.mts".toList).LiesBelow (ofText "src".toList) ∧
      ofText "dist-npm/bin/x.d.ts".toList ∈
        forwardFlat (ofText "src/x.d.mts".toList) "src".toList "dist-npm/bin".toList ∧
      ofText "src/x.d.mts".toList ∉ reverse (ofText "dist-npm/bin/x.d.ts".toList) "src".toList :=
  ⟨⟨by decide, ["x.d.mts".toList], by decide, by decide⟩, by decide, by decide⟩

end DistDirectives.Mapping
