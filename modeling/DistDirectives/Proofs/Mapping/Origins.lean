import Mathlib.Data.List.Nodup
import DistDirectives.Proofs.Mapping.Places

/-!
# Where sources are looked for

A distribution file has candidates for its source exactly when its names mirror a place below
the source directory. All of them stand in the same directory as the file does on its side, and
their names differ from its name in the ending only. No candidate is looked at twice.
-/

namespace DistDirectives.Mapping

open DistDirectives.Path

/-! ## Source names -/

/-- A name under which the source of a file is looked for: the name itself, that of a script with
any script extension, and that of a declaration with `.ts` or `.js` in place of its whole ending. -/
inductive IsSourceName (name : Text) : Text → Prop
  | same : IsSourceName name name
  | script {stem old new : Text} (nonempty : stem ≠ []) (undeclared : ¬ declarationEnding <:+ name)
      (oldKnown : old ∈ scriptExtensions) (newKnown : new ∈ scriptExtensions)
      (name_eq : name = withExtension stem old) : IsSourceName name (withExtension stem new)
  | declaration {stem extension : Text} (known : extension ∈ declarationSources)
      (name_eq : name = stem ++ declarationEnding) :
        IsSourceName name (withExtension stem extension)

theorem isSourceName_of_mem_sources {name source : Text} (absent : '/' ∉ name)
    (mem : source ∈ sources name) : IsSourceName name source := by
  cases role : shape name with
  | other =>
      simp only [sources, role, List.mem_singleton] at mem
      exact mem ▸ .same
  | declaration stem =>
      simp only [sources, role, List.mem_append, List.mem_map, List.mem_singleton] at mem
      rcases mem with ⟨extension, known, rfl⟩ | rfl
      · exact .declaration known (shape_eq_declaration_iff.1 role)
      · exact .same
  | script stem =>
      obtain ⟨nonempty, undeclared, old, oldKnown, name_eq⟩ := (shape_eq_script_iff absent).1 role
      simp only [sources, role, List.mem_map] at mem
      rcases mem with ⟨new, newKnown, rfl⟩
      exact .script nonempty undeclared oldKnown newKnown name_eq

/-- A file can have the name of its source. -/
theorem self_mem_sources {name : Text} (absent : '/' ∉ name) : name ∈ sources name := by
  cases role : shape name with
  | other => simp [sources, role]
  | declaration stem => simp [sources, role]
  | script stem =>
      obtain ⟨-, -, old, oldKnown, name_eq⟩ := (shape_eq_script_iff absent).1 role
      simp only [sources, role]
      exact List.mem_map.2 ⟨old, oldKnown, name_eq.symm⟩

theorem mem_sources_iff_isSourceName {name source : Text} (absent : '/' ∉ name) :
    source ∈ sources name ↔ IsSourceName name source := by
  refine ⟨isSourceName_of_mem_sources absent, fun isSourceName => ?_⟩
  cases isSourceName with
  | same => exact self_mem_sources absent
  | @script stem old new nonempty undeclared oldKnown newKnown name_eq =>
      have role : shape name = .script stem :=
        (shape_eq_script_iff absent).2 ⟨nonempty, undeclared, old, oldKnown, name_eq⟩
      simp only [sources, role]
      exact List.mem_map.2 ⟨new, newKnown, rfl⟩
  | @declaration stem extension known name_eq =>
      have role : shape name = .declaration stem := shape_eq_declaration_iff.2 name_eq
      simp only [sources, role]
      exact List.mem_append_left _ (List.mem_map.2 ⟨extension, known, rfl⟩)

/-- No source name is tried twice. -/
theorem nodup_sources (name : Text) : (sources name).Nodup := by
  have distinct (stem : Text) {extensions : List Text} (nodup : extensions.Nodup) :
      (extensions.map (withExtension stem)).Nodup :=
    nodup.map fun _ _ => withExtension_inj.1
  cases role : shape name with
  | other => simp [sources, role]
  | script stem =>
      simp only [sources, role]
      exact distinct stem (by decide)
  | declaration stem =>
      -- the shortened names lack the part by which the name is longer
      have short {extension : Text} (known : extension ∈ declarationSources) :
          withExtension stem extension ≠ name := by
        intro same
        have long := congrArg List.length same
        have size : ∀ extension ∈ declarationSources, extension.length = 2 := by decide
        have ending : declarationEnding.length = 5 := by decide
        simp only [shape_eq_declaration_iff.1 role, withExtension, List.length_append,
          List.length_cons,
          size extension known, ending] at long
        omega
      simp only [sources, role]
      refine List.nodup_append.2 ⟨distinct stem (by decide), by simp, ?_⟩
      simpa using fun extension known => short known

/-! ## Candidates -/

variable {dist root source : Path} {sourceDir name : Text} {directories : List Text}

/-- The candidates of a file that mirrors a place stand in its directory, under its source names. -/
theorem mem_reverse_iff_of_mirrors
    (mirrors : Mirrors sourceDir (directories ++ [name]) dist.segments root) :
    source ∈ reverse dist sourceDir ↔
      source.isAbsolute = root.isAbsolute ∧ ∃ sourceName, IsSourceName name sourceName ∧
        source.segments = root.segments ++ (directories ++ [sourceName]) := by
  have absent : '/' ∉ name := (isSegment_of_mem_segments (mirrors.subset (by simp))).no_slash
  rw [mem_reverse_iff_of_origin (originOf?_eq_some_iff.2 ⟨by simp, mirrors⟩)]
  simp only [mem_sources_iff_isSourceName absent]

/-- Exactly the files that mirror a place have candidates. -/
theorem reverse_ne_nil_iff :
    reverse dist sourceDir ≠ [] ↔
      ∃ root directories name, Mirrors sourceDir (directories ++ [name]) dist.segments root := by
  constructor
  · intro nonempty
    obtain ⟨root, directories, name, origin⟩ := exists_origin_of_reverse nonempty
    exact ⟨root, directories, name, (originOf?_eq_some_iff.1 origin).2⟩
  · rintro ⟨root, directories, name, mirrors⟩
    have absent : '/' ∉ name := (isSegment_of_mem_segments (mirrors.subset (by simp))).no_slash
    rw [reverse_of_origin (originOf?_eq_some_iff.2 ⟨by simp, mirrors⟩), ne_eq, List.map_eq_nil_iff]
    exact List.ne_nil_of_mem (self_mem_sources absent)

/-- Two paths with the same names, but for the last one. -/
def AreSiblings (left right : Path) : Prop :=
  ∃ front name other, left.segments = front ++ [name] ∧ right.segments = front ++ [other]

/-- What the layouts share: what a source is built into has its candidates beside the source, if
its names mirror the place of the source only. -/
theorem areSiblings_of_mem_outputs {rest directory candidate : Path} {file : Text}
    (relative : rest.isAbsolute = false) (plain : ∀ segment ∈ rest.segments, IsPlainName segment)
    (segments : source.segments = directory.segments ++ rest.segments)
    (mem : file ∈ outputs rest.text)
    (mirrored : ∀ place origin,
      Mirrors sourceDir place (root.segments ++ (ofText file).segments) origin →
        origin.segments = directory.segments ∧ place = (ofText file).segments)
    (traced : candidate ∈ reverse (root.join file) sourceDir) : AreSiblings source candidate := by
  obtain ⟨origin, directories, name, found⟩ := exists_origin_of_reverse (List.ne_nil_of_mem traced)
  obtain ⟨-, mirrors⟩ := originOf?_eq_some_iff.1 found
  rw [segments_join] at mirrors
  obtain ⟨sameDirectory, place⟩ := mirrored _ _ mirrors
  obtain ⟨-, sourceName, -, candidateSegments⟩ := (mem_reverse_iff_of_origin found).1 traced
  rcases List.eq_nil_or_concat rest.segments with none_left | ⟨fronts, last, split⟩
  · -- the file would be the root itself, which mirrors no place with a name
    have empty := (place_of_mem_outputs relative plain mem).2.2.2 none_left
    simp [empty] at place
  · rw [List.concat_eq_append] at split
    rw [outputs_text relative split, List.mem_map] at mem
    obtain ⟨output, outputMem, rfl⟩ := mem
    have proper : ∀ segment ∈ fronts ++ [output], IsSegment segment := by
      simp only [split, List.mem_append, List.mem_singleton, or_imp, forall_and,
        forall_eq] at plain ⊢
      exact ⟨fun segment mem => (plain.1 segment mem).toIsSegment,
        isSegment_of_mem_outputs plain.2.toIsSegment outputMem⟩
    rw [segments_ofText_joinWith proper] at place
    obtain ⟨rfl, -⟩ := List.append_inj' place rfl
    refine ⟨directory.segments ++ directories, last, sourceName, ?_, ?_⟩
    · rw [segments, split, List.append_assoc]
    · rw [candidateSegments, sameDirectory, List.append_assoc]

/-- The candidates of what a source is built into in the flat layout stand beside the source. -/
theorem areSiblings_of_mem_forwardFlat {candidate : Path} {flatRoot top : Text}
    {place : List Text} (stands : StandsIn source (ofText sourceDir) place)
    (flat : (ofText flatRoot).segments = [top, outputDirectory])
    (notLibraries : top ≠ Target.librariesDirectory)
    (mem : dist ∈ forwardFlat source sourceDir flatRoot)
    (traced : candidate ∈ reverse dist sourceDir) : AreSiblings source candidate := by
  rw [forwardFlat] at mem
  split at mem
  · contradiction
  · rename_i rest stripped
    obtain ⟨segments, relative⟩ := stands.strip stripped
    obtain ⟨file, fileMem, rfl⟩ := List.mem_map.1 mem
    refine areSiblings_of_mem_outputs relative (segments ▸ stands.plain)
      (segments ▸ stands.segments) fileMem (fun mirroredPlace origin mirrors => ?_) traced
    rw [flat] at mirrors
    generalize (ofText file).segments = names at mirrors ⊢
    cases mirrors with
    | library => contradiction
    | flat => exact ⟨rfl, rfl⟩

/-- The candidates of what a source is built into in the layout of libraries stand beside the
source. -/
theorem areSiblings_of_mem_forwardLibrary {candidate : Path} {library registry : Text}
    {registries place : List Text} (stands : StandsIn source (ofText sourceDir) place)
    (libraryPlain : IsPlainName library)
    (registriesPlain : ∀ registry ∈ registries, IsPlainName registry)
    (mem : (registry, dist) ∈ forwardLibrary source sourceDir library registries)
    (traced : candidate ∈ reverse dist sourceDir) : AreSiblings source candidate := by
  rw [forwardLibrary] at mem
  split at mem
  · contradiction
  · rename_i rest stripped
    simp only [List.mem_flatMap, List.mem_map, Prod.mk.injEq] at mem
    obtain ⟨registry, registryMem, file, fileMem, rfl, rfl⟩ := mem
    obtain ⟨relative, plain, segments⟩ := stands.strip_library libraryPlain stripped
    refine areSiblings_of_mem_outputs relative plain segments fileMem
      (fun mirroredPlace origin mirrors => ?_) traced
    rw [segments_libraryRoot libraryPlain.toIsSegment
      (registriesPlain registry registryMem).toIsSegment] at mirrors
    generalize (ofText file).segments = names at mirrors ⊢
    cases mirrors with
    | library => exact ⟨rfl, rfl⟩
    | flat isRoot => exact absurd isRoot (by decide)

/-- No candidate is listed twice. -/
theorem nodup_reverse (dist : Path) (sourceDir : Text) : (reverse dist sourceDir).Nodup := by
  by_cases none_left : reverse dist sourceDir = []
  · simp [none_left]
  obtain ⟨root, directories, name, origin⟩ := exists_origin_of_reverse none_left
  rw [reverse_of_origin origin]
  refine (nodup_sources name).map_on fun left leftMem right rightMem same => ?_
  have segments := congrArg Path.segments same
  rw [segments_join_joinWith root (isSegment_of_renamed origin leftMem),
    segments_join_joinWith root (isSegment_of_renamed origin rightMem)] at segments
  simpa using segments

end DistDirectives.Mapping
