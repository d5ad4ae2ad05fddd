import Mathlib.Tactic.ByContra
import DistDirectives.Mapping.Names
import DistDirectives.Proofs.Path.Segments

/-!
# Names of outputs and of sources

Whether a file is a declaration, a script or something else is decided by its last
segment, and so are the names of its outputs and of its sources. For a single name
the two tables are compared in `mem_sources_iff`: an output is traced back to its
source except when it reads as a declaration and the source does not.
-/

namespace DistDirectives

namespace Text

theorem takeWhile_reverse_append {p : Char → Bool} {front back : Text} {c : Char}
    (stops : p c = false) (passes : ∀ d ∈ back, p d = true) :
    takeEndWhile p (front ++ c :: back) = back ∧
      dropEndWhile p (front ++ c :: back) = front ++ [c] := by
  have turned : (front ++ c :: back).reverse = back.reverse ++ c :: front.reverse := by simp
  have passed : ∀ d ∈ back.reverse, p d = true := fun d mem => passes d (List.mem_reverse.1 mem)
  constructor
  · rw [takeEndWhile, turned, List.takeWhile_append_of_pos passed,
      List.takeWhile_cons_of_neg (by simp [stops]), List.append_nil, List.reverse_reverse]
  · rw [dropEndWhile, turned, List.dropWhile_append_of_pos passed,
      List.dropWhile_cons_of_neg (by simp [stops])]
    simp

theorem takeEndWhile_eq_self {p : Char → Bool} {text : Text} (passes : ∀ c ∈ text, p c = true) :
    takeEndWhile p text = text ∧ dropEndWhile p text = [] := by
  have passed : ∀ c ∈ text.reverse, p c = true := fun c mem => passes c (List.mem_reverse.1 mem)
  constructor
  · rw [takeEndWhile, ← List.append_nil text.reverse, List.takeWhile_append_of_pos passed]
    simp
  · rw [dropEndWhile, ← List.append_nil text.reverse, List.dropWhile_append_of_pos passed]
    simp

/-- A text either lacks a character or splits at its last occurrence. -/
theorem not_mem_or_exists_last (c : Char) (text : Text) :
    c ∉ text ∨ ∃ front back, text = front ++ c :: back ∧ c ∉ back := by
  induction text with
  | nil => exact .inl (by simp)
  | cons d rest ih =>
      rcases ih with absent | ⟨front, back, split, absent⟩
      · by_cases same : d = c
        · exact .inr ⟨[], rest, by simp [same], absent⟩
        · exact .inl (by simp [absent, Ne.symm same])
      · exact .inr ⟨d :: front, back, by simp [split], absent⟩

/-- An ending without slashes is looked for behind the last slash. -/
theorem before?_append_slash {ending directory name : Text} (absent : '/' ∉ ending) :
    before? ending (directory ++ '/' :: name) =
      (before? ending name).map (directory ++ '/' :: ·) := by
  apply Option.ext
  intro front
  rw [before?_eq_some_iff, Path.append_slash_eq_append_iff absent, Option.map_eq_some_iff]
  constructor
  · rintro ⟨stem, split, rfl⟩
    exact ⟨stem, before?_eq_some_iff.2 split, rfl⟩
  · rintro ⟨stem, found, rfl⟩
    exact ⟨stem, before?_eq_some_iff.1 found, rfl⟩

end Text

namespace Path

/-- A name has an extension when it has a dot that is not its first character; what
follows the last dot is the extension. -/
theorem extensionOf?_eq_some_iff {name extension : Text} :
    extensionOf? name = some extension ↔
      ∃ stem, stem ≠ [] ∧ name = stem ++ '.' :: extension ∧ '.' ∉ extension := by
  constructor
  · intro found
    rcases Text.not_mem_or_exists_last '.' name with absent | ⟨stem, back, rfl, absent⟩
    · have passes : ∀ c ∈ name, decide (c ≠ '.') = true := fun c mem => by
        simpa using fun same : c = '.' => absent (same ▸ mem)
      rw [extensionOf?, (Text.takeEndWhile_eq_self passes).2] at found
      contradiction
    · have passes : ∀ c ∈ back, decide (c ≠ '.') = true := fun c mem => by
        simpa using fun same : c = '.' => absent (same ▸ mem)
      obtain ⟨taken, dropped⟩ := @Text.takeWhile_reverse_append (fun c => decide (c ≠ '.'))
        stem back '.' (by decide) passes
      rw [extensionOf?, taken, dropped] at found
      cases stem with
      | nil => simp at found
      | cons c stem =>
          have same : back = extension := by
            cases stem <;> simpa using found
          exact ⟨c :: stem, by simp, by rw [same], same ▸ absent⟩
  · rintro ⟨stem, nonempty, rfl, absent⟩
    have passes : ∀ c ∈ extension, decide (c ≠ '.') = true := fun c mem => by
      simpa using fun same : c = '.' => absent (same ▸ mem)
    obtain ⟨taken, dropped⟩ := @Text.takeWhile_reverse_append (fun c => decide (c ≠ '.'))
      stem extension '.' (by decide) passes
    rw [extensionOf?, taken, dropped]
    cases stem with
    | nil => exact absurd rfl nonempty
    | cons c stem => cases stem <;> rfl

end Path

namespace Mapping

/-! ## Only the last segment decides -/

theorem lastSegment_of_not_mem {name : Text} (absent : '/' ∉ name) : lastSegment name = name :=
  (Text.takeEndWhile_eq_self fun c mem => by
    simpa using fun same : c = '/' => absent (same ▸ mem)).1

theorem lastSegment_append_slash (directory : Text) {name : Text} (absent : '/' ∉ name) :
    lastSegment (directory ++ '/' :: name) = name :=
  (Text.takeWhile_reverse_append (by decide) fun c mem => by
    simpa using fun same : c = '/' => absent (same ▸ mem)).1

/-- The role of a file that lies in a directory. -/
def Shape.under (directory : Text) : Shape → Shape
  | declaration stem => declaration (directory ++ '/' :: stem)
  | script stem => script (directory ++ '/' :: stem)
  | other => other

theorem slash_not_mem_extension {name extension : Text} (absent : '/' ∉ name)
    (found : Path.extensionOf? name = some extension) : '/' ∉ '.' :: extension := by
  rcases Path.extensionOf?_eq_some_iff.1 found with ⟨stem, _, rfl, _⟩
  simp only [List.mem_append, List.mem_cons, not_or] at absent ⊢
  exact absent.2

theorem shape_append_slash (directory : Text) {name : Text} (absent : '/' ∉ name) :
    shape (directory ++ '/' :: name) = (shape name).under directory := by
  rw [shape, shape, Text.before?_append_slash (by decide), lastSegment_append_slash _ absent,
    lastSegment_of_not_mem absent]
  cases Text.before? declarationEnding name with
  | some stem => rfl
  | none =>
      simp only [Option.map_none]
      cases found : Path.extensionOf? name with
      | none => rfl
      | some extension =>
          simp only [Text.before?_append_slash (slash_not_mem_extension absent found)]
          cases scriptExtensions.contains extension with
          | false => rfl
          | true => cases Text.before? ('.' :: extension) name <;> rfl

theorem withExtension_append_slash (directory stem extension : Text) :
    withExtension (directory ++ '/' :: stem) extension =
      directory ++ '/' :: withExtension stem extension := by
  simp [withExtension]

theorem outputs_append_slash (directory : Text) {name : Text} (absent : '/' ∉ name) :
    outputs (directory ++ '/' :: name) = (outputs name).map (directory ++ '/' :: ·) := by
  rw [outputs, outputs, shape_append_slash directory absent]
  cases shape name with
  | script stem =>
      simp only [Shape.under, List.map_map]
      exact List.map_congr_left fun extension _ => withExtension_append_slash ..
  | declaration stem => rfl
  | other => rfl

theorem sources_append_slash (directory : Text) {name : Text} (absent : '/' ∉ name) :
    sources (directory ++ '/' :: name) = (sources name).map (directory ++ '/' :: ·) := by
  rw [sources, sources, shape_append_slash directory absent]
  cases shape name with
  | script stem =>
      simp only [Shape.under, List.map_map]
      exact List.map_congr_left fun extension _ => withExtension_append_slash ..
  | declaration stem =>
      simp only [Shape.under, List.map_append, List.map_map, List.map_cons, List.map_nil]
      congr 1
      exact List.map_congr_left fun extension _ => withExtension_append_slash ..
  | other => rfl

/-- The outputs of a file stand beside it, under the output names of its name. -/
theorem outputs_joinWith (directories : List Text) {name : Text} (absent : '/' ∉ name) :
    outputs (Text.joinWith '/' (directories ++ [name])) =
      (outputs name).map fun output => Text.joinWith '/' (directories ++ [output]) := by
  by_cases top : directories = []
  · subst top
    exact (List.map_id _).symm
  · simp only [Text.joinWith_append top (List.cons_ne_nil _ _)]
    exact outputs_append_slash _ absent

/-- The possible sources of a file stand beside it, under the source names of its name. -/
theorem sources_joinWith (directories : List Text) {name : Text} (absent : '/' ∉ name) :
    sources (Text.joinWith '/' (directories ++ [name])) =
      (sources name).map fun source => Text.joinWith '/' (directories ++ [source]) := by
  by_cases top : directories = []
  · subst top
    exact (List.map_id _).symm
  · simp only [Text.joinWith_append top (List.cons_ne_nil _ _)]
    exact sources_append_slash _ absent

/-! ## The roles of a name -/

theorem shape_eq_declaration_iff {file stem : Text} :
    shape file = .declaration stem ↔ file = stem ++ declarationEnding := by
  rw [← Text.before?_eq_some_iff, shape]
  cases Text.before? declarationEnding file with
  | some found => simp
  | none =>
      simp only [reduceCtorEq, iff_false]
      cases Path.extensionOf? (lastSegment file) with
      | none => simp
      | some extension =>
          simp only
          cases scriptExtensions.contains extension with
          | false => simp
          | true => cases Text.before? ('.' :: extension) file <;> simp

/-- The extensions of scripts hold no dot. -/
theorem dot_not_mem_of_mem_scriptExtensions {extension : Text}
    (mem : extension ∈ scriptExtensions) : '.' ∉ extension := by
  revert extension
  decide

theorem ne_nil_of_mem_scriptExtensions {extension : Text}
    (mem : extension ∈ scriptExtensions) : extension ≠ [] := by
  revert extension
  decide

theorem mem_scriptExtensions_of_mem_declarationSources {extension : Text}
    (mem : extension ∈ declarationSources) : extension ∈ scriptExtensions := by
  revert extension
  decide

theorem mem_scriptExtensions_of_mem_outputExtensions {extension : Text}
    (mem : extension ∈ outputExtensions) : extension ∈ scriptExtensions := by
  revert extension
  decide

/-- A name is a script when a stem that is not empty precedes a script extension, and
the name does not end as declarations do. -/
theorem shape_eq_script_iff {name stem : Text} (absent : '/' ∉ name) :
    shape name = .script stem ↔
      stem ≠ [] ∧ ¬ declarationEnding <:+ name ∧
        ∃ extension ∈ scriptExtensions, name = withExtension stem extension := by
  have declared : (∃ front, Text.before? declarationEnding name = some front) ↔
      declarationEnding <:+ name :=
    ⟨fun ⟨front, found⟩ => ⟨front, (Text.before?_eq_some_iff.1 found).symm⟩,
      fun ⟨front, split⟩ => ⟨front, Text.before?_eq_some_iff.2 split.symm⟩⟩
  rw [shape, lastSegment_of_not_mem absent]
  cases ending : Text.before? declarationEnding name with
  | some front =>
      simp only [reduceCtorEq, false_iff, not_and]
      exact fun _ otherwise => absurd (declared.1 ⟨front, ending⟩) otherwise
  | none =>
      have undeclared : ¬ declarationEnding <:+ name := fun ends => by
        rcases declared.2 ends with ⟨front, found⟩
        rw [ending] at found
        contradiction
      constructor
      · intro scripted
        cases found : Path.extensionOf? name with
        | none => simp [found] at scripted
        | some extension =>
            rcases Path.extensionOf?_eq_some_iff.1 found with ⟨front, nonempty, name_eq, _⟩
            simp only [found, Text.before?_eq_some_iff.2 name_eq] at scripted
            split at scripted
            · rename_i known
              cases scripted
              exact ⟨nonempty, undeclared, extension, by simpa using known, name_eq⟩
            · contradiction
      · rintro ⟨nonempty, _, extension, known, rfl⟩
        have found : Path.extensionOf? (withExtension stem extension) = some extension :=
          Path.extensionOf?_eq_some_iff.2
            ⟨stem, nonempty, rfl, dot_not_mem_of_mem_scriptExtensions known⟩
        have before : Text.before? ('.' :: extension) (withExtension stem extension) = some stem :=
          Text.before?_eq_some_iff.2 rfl
        simp [found, before, known]

/-! ## Outputs traced back to their sources -/

theorem withExtension_inj {stem left right : Text} :
    withExtension stem left = withExtension stem right ↔ left = right := by
  simp [withExtension]

/-- The output of a script that is emitted as TypeScript ends as declarations do
exactly when its stem ends in `.d`. -/
theorem declarationEnding_isSuffix_withExtension_iff {stem extension : Text}
    (known : extension ∈ scriptExtensions) :
    declarationEnding <:+ withExtension stem extension ↔
      extension = "ts".toList ∧ ∃ front, stem = front ++ ".d".toList := by
  constructor
  · rintro ⟨front, split⟩
    have absent := dot_not_mem_of_mem_scriptExtensions known
    have split : front ++ ".d".toList ++ '.' :: "ts".toList = stem ++ '.' :: extension := by
      simpa [declarationEnding, withExtension] using split
    -- the last dot of both sides is the one before the extension
    rcases List.append_eq_append_iff.1 split with ⟨middle, stem_eq, tail_eq⟩ |
      ⟨middle, stem_eq, tail_eq⟩
    · cases middle with
      | nil =>
          simp only [List.nil_append, List.cons.injEq, true_and] at tail_eq
          exact ⟨tail_eq.symm, front, by simpa using stem_eq⟩
      | cons c middle =>
          simp only [List.cons_append, List.cons.injEq] at tail_eq
          have inside : '.' ∈ "ts".toList := by simp [tail_eq.2]
          exact absurd inside (by decide)
    · cases middle with
      | nil =>
          simp only [List.nil_append, List.cons.injEq, true_and] at tail_eq
          exact ⟨tail_eq, front, by simpa using stem_eq.symm⟩
      | cons c middle =>
          simp only [List.cons_append, List.cons.injEq] at tail_eq
          exact absurd (by simp [tail_eq.2]) absent
  · rintro ⟨rfl, front, rfl⟩
    exact ⟨front, by simp [declarationEnding, withExtension]⟩

/-- A script that is no declaration is not among the sources of an output that reads
as a declaration: these are the stem of the declaration with `.ts` and `.js`, and the
declaration itself. -/
theorem not_mem_sources_of_declared {stem extension emitted : Text}
    (known : extension ∈ scriptExtensions) (emittedKnown : emitted ∈ scriptExtensions)
    (undeclared : ¬ declarationEnding <:+ withExtension stem extension)
    (declared : declarationEnding <:+ withExtension stem emitted) :
    withExtension stem extension ∉ sources (withExtension stem emitted) := by
  rcases (declarationEnding_isSuffix_withExtension_iff emittedKnown).1 declared
    with ⟨rfl, front, rfl⟩
  have role : shape (withExtension (front ++ ".d".toList) "ts".toList) = .declaration front :=
    shape_eq_declaration_iff.2 (by simp [withExtension, declarationEnding])
  simp only [sources, role, List.mem_append, List.mem_map, List.mem_singleton, not_or,
    not_exists, not_and, withExtension_inj]
  constructor
  · intro searched searchedMem same
    have plain : ∀ searched ∈ declarationSources, '.' ∉ searched := by decide
    have split : searched = 'd' :: '.' :: extension := by simpa [withExtension] using same
    exact plain searched searchedMem (by simp [split])
  · rintro rfl
    exact undeclared declared

/-- An output of a name is traced back to the name, unless it ends as declarations
do and the name does not. -/
theorem mem_sources_iff {name output : Text} (absent : '/' ∉ name) (mem : output ∈ outputs name) :
    name ∈ sources output ↔ (declarationEnding <:+ output → declarationEnding <:+ name) := by
  cases role : shape name with
  | other =>
      simp only [outputs, role, List.mem_singleton] at mem
      simp [mem, sources, role]
  | declaration stem =>
      simp only [outputs, role, List.mem_singleton] at mem
      simp [mem, sources, role]
  | script stem =>
      rcases (shape_eq_script_iff absent).1 role
        with ⟨nonempty, undeclared, extension, known, name_eq⟩
      simp only [outputs, role, List.mem_map] at mem
      rcases mem with ⟨emitted, emittedMem, rfl⟩
      have emittedKnown := mem_scriptExtensions_of_mem_outputExtensions emittedMem
      have stemAbsent : '/' ∉ withExtension stem emitted := by
        have plain : '/' ∉ emitted := by
          revert emitted
          decide
        simp only [name_eq, withExtension, List.mem_append, List.mem_cons, not_or] at absent ⊢
        exact ⟨absent.1, absent.2.1, plain⟩
      simp only [undeclared, imp_false]
      by_cases declared : declarationEnding <:+ withExtension stem emitted
      · have untraced := not_mem_sources_of_declared known emittedKnown
          (name_eq ▸ undeclared) declared
        simpa [declared, name_eq] using untraced
      · have traced : shape (withExtension stem emitted) = .script stem :=
          (shape_eq_script_iff stemAbsent).2 ⟨nonempty, declared, emitted, emittedKnown, rfl⟩
        simp only [declared, not_false_eq_true, iff_true, sources, traced, List.mem_map]
        exact ⟨extension, known, name_eq.symm⟩

/-- A name in place of which a name with an extension is put stays a proper segment. -/
theorem isSegment_withExtension {stem old extension : Text}
    (proper : Path.IsSegment (withExtension stem old)) (known : extension ∈ scriptExtensions) :
    Path.IsSegment (withExtension stem extension) := by
  have nonempty := ne_nil_of_mem_scriptExtensions known
  have plain : '/' ∉ extension ∧ '\\' ∉ extension := by
    revert extension
    decide
  have no_slash := proper.no_slash
  have no_backslash := proper.no_backslash
  simp only [withExtension, List.mem_append, List.mem_cons, not_or] at no_slash no_backslash
  refine ⟨by simp [withExtension], ?_, ?_, ?_⟩
  · cases stem <;> simp [withExtension, nonempty]
  · simp [withExtension, no_slash.1, plain.1]
  · simp [withExtension, no_backslash.1, plain.2]

/-- The output names of a name are proper segments. -/
theorem isSegment_of_mem_outputs {name output : Text} (proper : Path.IsSegment name)
    (mem : output ∈ outputs name) : Path.IsSegment output := by
  cases role : shape name with
  | other =>
      simp only [outputs, role, List.mem_singleton] at mem
      exact mem ▸ proper
  | declaration stem =>
      simp only [outputs, role, List.mem_singleton] at mem
      exact mem ▸ proper
  | script stem =>
      rcases (shape_eq_script_iff proper.no_slash).1 role with ⟨_, _, extension, _, rfl⟩
      simp only [outputs, role, List.mem_map] at mem
      rcases mem with ⟨emitted, emittedMem, rfl⟩
      exact isSegment_withExtension proper (mem_scriptExtensions_of_mem_outputExtensions emittedMem)

/-- The source names of a name are proper segments. -/
theorem isSegment_of_mem_sources {name source : Text} (proper : Path.IsSegment name)
    (mem : source ∈ sources name) : Path.IsSegment source := by
  cases role : shape name with
  | other =>
      simp only [sources, role, List.mem_singleton] at mem
      exact mem ▸ proper
  | declaration stem =>
      have name_eq : name = withExtension (stem ++ ".d".toList) "ts".toList := by
        simp [shape_eq_declaration_iff.1 role, withExtension, declarationEnding]
      simp only [sources, role, List.mem_append, List.mem_map, List.mem_singleton] at mem
      rcases mem with ⟨searched, searchedMem, rfl⟩ | rfl
      · have shorter : Path.IsSegment (withExtension stem "d.ts".toList) := by
          have split : withExtension stem "d.ts".toList = name := by
            simp [name_eq, withExtension]
          exact split ▸ proper
        exact isSegment_withExtension shorter
          (mem_scriptExtensions_of_mem_declarationSources searchedMem)
      · exact proper
  | script stem =>
      rcases (shape_eq_script_iff proper.no_slash).1 role with ⟨_, _, extension, _, rfl⟩
      simp only [sources, role, List.mem_map] at mem
      rcases mem with ⟨searched, searchedMem, rfl⟩
      exact isSegment_withExtension proper searchedMem

end Mapping

end DistDirectives
