import DistDirectives.Proofs.Mapping.RoundTrip

/-!
# Where candidates lie

A candidate lies below the directory that its layout prescribes, at a place made of plain
names. This holds for the distribution files that a source can be built into and for the
sources that a distribution file can come from, so neither leads out of its directory.
-/

namespace DistDirectives.Mapping

open DistDirectives.Path

/-! ## Names of candidates -/

/-- A name with an extension of a script leads down. -/
theorem withExtension_ne_dots {stem extension : Text} (known : extension ∈ scriptExtensions) :
    withExtension stem extension ≠ ['.', '.'] := by
  intro same
  have absent := dot_not_mem_of_mem_scriptExtensions known
  have ending := congrArg List.getLast? same
  have nonempty := ne_nil_of_mem_scriptExtensions known
  rw [withExtension, List.getLast?_append, List.getLast?_cons_of_ne_nil nonempty,
    Option.or_of_isSome (by simpa using nonempty)] at ending
  exact absent (List.mem_of_getLast? ending)

theorem isPlainName_of_mem_outputs {name output : Text} (plain : IsPlainName name)
    (mem : output ∈ outputs name) : IsPlainName output := by
  refine ⟨isSegment_of_mem_outputs plain.toIsSegment mem, ?_⟩
  rw [outputs] at mem
  split at mem
  · rcases List.mem_map.1 mem with ⟨emitted, emittedMem, rfl⟩
    exact withExtension_ne_dots (mem_scriptExtensions_of_mem_outputExtensions emittedMem)
  all_goals
    rw [List.mem_singleton] at mem
    exact mem ▸ plain.ne_dots

theorem isPlainName_of_mem_sources {name source : Text} (plain : IsPlainName name)
    (mem : source ∈ sources name) : IsPlainName source := by
  refine ⟨isSegment_of_mem_sources plain.toIsSegment mem, ?_⟩
  rw [sources] at mem
  split at mem
  · rcases List.mem_append.1 mem with searched | same
    · rcases List.mem_map.1 searched with ⟨extension, known, rfl⟩
      exact withExtension_ne_dots (mem_scriptExtensions_of_mem_declarationSources known)
    · rw [List.mem_singleton] at same
      exact same ▸ plain.ne_dots
  · rcases List.mem_map.1 mem with ⟨extension, known, rfl⟩
    exact withExtension_ne_dots known
  · rw [List.mem_singleton] at mem
    exact mem ▸ plain.ne_dots

theorem segments_librarySourceRoot (sourceDir : Text) {library : Text}
    (proper : IsSegment library) :
    (librarySourceRoot sourceDir library).segments =
      (ofText sourceDir).segments ++ [librarySources, library] := by
  have sources : (ofText librarySources).segments = [librarySources] := by decide
  rw [librarySourceRoot, segments_join_segment _ proper, segments_join, sources, List.append_assoc]
  rfl

/-! ## Distribution files of a source -/

/-- The outputs of a place made of plain names are such places. -/
theorem place_of_mem_outputs {rest : Path} (relative : rest.isAbsolute = false)
    (plain : ∀ segment ∈ rest.segments, IsPlainName segment) {file : Text}
    (mem : file ∈ outputs rest.text) :
    (ofText file).isAbsolute = false ∧ (∀ segment ∈ (ofText file).segments, IsPlainName segment) ∧
      ((ofText file).segments = [] ↔ rest.segments = []) := by
  rcases List.eq_nil_or_concat rest.segments with none_left | ⟨directories, name, split⟩
  · have no_text : rest.text = [] := by
      rw [text_of_relative relative, none_left]
      rfl
    have only : outputs [] = [[]] := by decide
    rw [no_text, only, List.mem_singleton] at mem
    subst mem
    have no_segments : (ofText []).segments = [] := by decide
    refine ⟨by decide, ?_, by simp [no_segments, none_left]⟩
    rw [no_segments]
    simp
  · rw [List.concat_eq_append] at split
    simp only [split, List.mem_append, List.mem_singleton, or_imp, forall_and, forall_eq] at plain
    rw [outputs_text relative split, List.mem_map] at mem
    rcases mem with ⟨output, outputMem, rfl⟩
    have outputPlain := isPlainName_of_mem_outputs plain.2 outputMem
    have placePlain : ∀ segment ∈ directories ++ [output], IsPlainName segment := by
      simpa [or_imp, forall_and] using ⟨plain.1, outputPlain⟩
    have proper : ∀ segment ∈ directories ++ [output], IsSegment segment :=
      fun segment segmentMem => (placePlain segment segmentMem).toIsSegment
    rw [segments_ofText_joinWith proper]
    exact ⟨isAbsolute_ofText_joinWith proper, placePlain, by simp [split]⟩

/-- A source that stands behind a directory at a place made of plain names. -/
structure StandsIn (source directory : Path) (place : List Text) : Prop where
  segments : source.segments = directory.segments ++ place
  relative : directory.isAbsolute = false → source.isAbsolute = false
  plain : ∀ name ∈ place, IsPlainName name

theorem StandsIn.strip {source rest : Path} {lead : Text} {place : List Text}
    (stands : StandsIn source (ofText lead) place) (stripped : source.strip? lead = some rest) :
    rest.segments = place ∧ rest.isAbsolute = false := by
  rw [strip?_eq_some_iff] at stripped
  split at stripped
  · rename_i lead_empty
    rcases isEmpty_iff.1 lead_empty with ⟨lead_relative, none_left⟩
    rw [stripped, stands.segments, none_left, List.nil_append]
    exact ⟨rfl, stands.relative lead_relative⟩
  · rcases stripped with ⟨_, relative, segments⟩
    rw [stands.segments, List.append_cancel_left_eq] at segments
    exact ⟨segments.symm, relative⟩

theorem StandsIn.strip_library {source rest : Path} {sourceDir library : Text} {place : List Text}
    (stands : StandsIn source (ofText sourceDir) place) (libraryPlain : IsPlainName library)
    (stripped : source.strip? (librarySourceRoot sourceDir library).text = some rest) :
    rest.isAbsolute = false ∧ (∀ segment ∈ rest.segments, IsPlainName segment) ∧
      source.segments = (librarySourceRoot sourceDir library).segments ++ rest.segments := by
  have lead_segments := segments_librarySourceRoot sourceDir libraryPlain.toIsSegment
  have lead_nonempty : ¬ (librarySourceRoot sourceDir library).isEmpty = true := by
    intro is_empty
    have none_left := (isEmpty_iff.1 is_empty).2
    simp [lead_segments] at none_left
  rw [strip?_eq_some_iff, ofText_text, if_neg lead_nonempty] at stripped
  rcases stripped with ⟨_, relative, segments⟩
  refine ⟨relative, fun segment mem => stands.plain segment ?_, segments⟩
  rw [stands.segments, lead_segments, List.append_assoc, List.append_cancel_left_eq] at segments
  simp [segments, mem]

/-- A distribution file behind the directory of its layout. -/
structure LiesIn (dist : Path) (directory place : List Text) : Prop where
  relative : dist.isAbsolute = false
  segments : dist.segments = directory ++ place
  plain : ∀ segment ∈ place, IsPlainName segment

theorem liesIn_join {rest root : Path} (rootRelative : root.isAbsolute = false)
    (relative : rest.isAbsolute = false) (plain : ∀ segment ∈ rest.segments, IsPlainName segment)
    {file : Text} (mem : file ∈ outputs rest.text) :
    ∃ place, LiesIn (root.join file) root.segments place ∧ (place = [] ↔ rest.segments = []) := by
  obtain ⟨fileRelative, filePlain, fileNonempty⟩ := place_of_mem_outputs relative plain mem
  refine ⟨(ofText file).segments, ⟨?_, segments_join root file, filePlain⟩, fileNonempty⟩
  rw [isAbsolute_join_of_relative root fileRelative, rootRelative]

theorem liesIn_of_mem_forwardFlat {source dist : Path} {sourceDir flatRoot : Text}
    {place : List Text} (stands : StandsIn source (ofText sourceDir) place) (nonempty : place ≠ [])
    (relative : (ofText flatRoot).isAbsolute = false)
    (mem : dist ∈ forwardFlat source sourceDir flatRoot) :
    ∃ place, place ≠ [] ∧ LiesIn dist (ofText flatRoot).segments place := by
  rw [forwardFlat] at mem
  split at mem
  · contradiction
  · rename_i rest stripped
    obtain ⟨segments, restRelative⟩ := stands.strip stripped
    rcases List.mem_map.1 mem with ⟨file, fileMem, rfl⟩
    obtain ⟨inner, lies, empty_iff⟩ :=
      liesIn_join relative restRelative (segments ▸ stands.plain) fileMem
    exact ⟨inner, fun none_left => nonempty (segments ▸ empty_iff.1 none_left), lies⟩

theorem liesIn_of_mem_forwardLibrary {source dist : Path} {sourceDir library registry : Text}
    {registries : List Text} {place : List Text} (stands : StandsIn source (ofText sourceDir) place)
    (libraryPlain : IsPlainName library)
    (registriesPlain : ∀ registry ∈ registries, IsPlainName registry)
    (mem : (registry, dist) ∈ forwardLibrary source sourceDir library registries) :
    registry ∈ registries ∧
      ∃ place, LiesIn dist [Target.librariesDirectory, library, registry, outputDirectory] place ∧
        (place = [] ↔
          source.segments = (ofText sourceDir).segments ++ [librarySources, library]) := by
  rw [forwardLibrary] at mem
  split at mem
  · contradiction
  · rename_i rest stripped
    simp only [List.mem_flatMap, List.mem_map, Prod.mk.injEq] at mem
    rcases mem with ⟨registry, registryMem, file, fileMem, rfl, rfl⟩
    refine ⟨registryMem, ?_⟩
    have registryPlain := registriesPlain registry registryMem
    obtain ⟨relative, plain, segments⟩ := stands.strip_library libraryPlain stripped
    have rootRelative : (libraryRoot library registry).isAbsolute = false := by
      have libraries : (ofText Target.librariesDirectory).isAbsolute = false := by decide
      have output : (ofText outputDirectory).isAbsolute = false := by decide
      rw [libraryRoot, isAbsolute_join_of_relative _ output,
        isAbsolute_join_of_relative _ (isAbsolute_ofText_segment registryPlain.toIsSegment),
        isAbsolute_join_of_relative _ (isAbsolute_ofText_segment libraryPlain.toIsSegment),
          libraries]
    obtain ⟨inner, lies, empty_iff⟩ := liesIn_join rootRelative relative plain fileMem
    rw [segments_libraryRoot libraryPlain.toIsSegment registryPlain.toIsSegment] at lies
    refine ⟨inner, lies, ?_⟩
    rw [empty_iff, segments, segments_librarySourceRoot sourceDir libraryPlain.toIsSegment,
      List.append_right_eq_self]

/-! ## Sources of a distribution file -/

theorem mem_of_originOf? {dist root : Path} {sourceDir : Text} {place : List Text}
    (found : originOf? dist sourceDir = some (root, place)) :
    (root = ofText sourceDir ∨
      ∃ library ∈ dist.segments, root = librarySourceRoot sourceDir library) ∧
      ∀ name ∈ place, name ∈ dist.segments := by
  have mirrors := (originOf?_eq_some_iff.1 found).2
  refine ⟨?_, fun _ mem => mirrors.subset mem⟩
  generalize dist.segments = names at mirrors
  cases mirrors with
  | @library library registry traced => exact .inr ⟨library, by simp, rfl⟩
  | flat isRoot => exact .inl rfl

/-- The sources of a distribution file with plain names stand behind the source directory,
at a place made of plain names. -/
theorem segments_of_mem_reverse {dist source : Path} {sourceDir : Text}
    (plain : ∀ segment ∈ dist.segments, IsPlainName segment)
    (mem : source ∈ reverse dist sourceDir) :
    ∃ place, place ≠ [] ∧ (∀ segment ∈ place, IsPlainName segment) ∧
      source.segments = (ofText sourceDir).segments ++ place := by
  obtain ⟨root, directories, output, origin⟩ := exists_origin_of_reverse (List.ne_nil_of_mem mem)
  obtain ⟨root_eq, inside⟩ := mem_of_originOf? origin
  have placePlain : ∀ name ∈ directories ++ [output], IsPlainName name := fun name nameMem =>
    plain name (inside name nameMem)
  -- the names of the source are those of the place, but for the last one
  obtain ⟨-, name, nameMem, segments⟩ := (mem_reverse_iff_of_origin origin).1 mem
  simp only [List.mem_append, List.mem_singleton, or_imp, forall_and, forall_eq] at placePlain
  have innerPlain : ∀ segment ∈ directories ++ [name], IsPlainName segment := by
    simpa [or_imp, forall_and] using ⟨placePlain.1, isPlainName_of_mem_sources placePlain.2 nameMem⟩
  rcases root_eq with rfl | ⟨library, libraryMem, rfl⟩
  · exact ⟨_, by simp, innerPlain, segments⟩
  · have libraryPlain := plain library libraryMem
    refine ⟨librarySources :: library :: (directories ++ [name]), by simp, ?_, ?_⟩
    · have sourcesPlain : IsPlainName librarySources :=
        ⟨⟨by decide, by decide, by decide, by decide⟩, by decide⟩
      intro segment segmentMem
      rcases List.mem_cons.1 segmentMem with rfl | segmentMem
      · exact sourcesPlain
      rcases List.mem_cons.1 segmentMem with rfl | segmentMem
      · exact libraryPlain
      · exact innerPlain segment segmentMem
    · simp only [segments, segments_librarySourceRoot sourceDir libraryPlain.toIsSegment,
        List.append_assoc, List.cons_append, List.nil_append]

end DistDirectives.Mapping
