import Mathlib.Data.List.Nodup
import Mathlib.Data.Set.List
import DistDirectives.Proofs.Target

/-!
# Which lists of targets are accepted

The documented lists are those whose items are all written forms of targets, none of them
twice, and without the item for all libraries beside an item for one. They are accepted in
any order and nothing else is (`readAll_exact`).

A refusal is decided in two rounds. The items are read from left to right, and the first
one that is no target, or that was given before, is the one that the error names. Only
when there is none does the list as a whole matter.
-/

namespace DistDirectives.Target

/-! ## Documented lists -/

/-- A written form of a target. -/
def IsKnown (written : Text) : Prop :=
  written = npmDirectory ∨ written = jsrDirectory ∨ written = librariesDirectory ∨
    ∃ name, Path.IsPlainName name ∧ written = librariesDirectory ++ '/' :: name

/-- A list that makes sense by itself and as a whole. -/
structure IsDocumented (items : List Text) : Prop where
  known : ∀ item ∈ items, IsKnown item
  nodup : items.Nodup
  apart : librariesDirectory ∈ items → ∀ name, librariesDirectory ++ '/' :: name ∉ items

/-- What is wrong with an item that comes after others. -/
inductive Refuses (earlier : List Text) (item : Text) : TargetError → Prop
  | noName : item = librariesDirectory ++ ['/'] → Refuses earlier item (.emptyLibrary item)
  | unknown : ¬IsKnown item → item ≠ librariesDirectory ++ ['/'] →
      Refuses earlier item (.invalid item)
  | library {name : Text} : Path.IsPlainName name → item = librariesDirectory ++ '/' :: name →
      item ∈ earlier → Refuses earlier item (.duplicateLibrary name)
  | directory : item = npmDirectory ∨ item = jsrDirectory ∨ item = librariesDirectory →
      item ∈ earlier → Refuses earlier item (.duplicateTarget item)

/-- What is wrong with the first item that is no target or was given before. -/
def RefusesFirst (items : List Text) (error : TargetError) : Prop :=
  ∃ front item back, items = front ++ item :: back ∧
    (∀ other ∈ front, IsKnown other) ∧ front.Nodup ∧ Refuses front item error

/-- What is wrong with a list that asks for all libraries and for a single one, of which
the first is named. -/
def Clashes (items : List Text) (error : TargetError) : Prop :=
  librariesDirectory ∈ items ∧
    ∃ front name back, items = front ++ (librariesDirectory ++ '/' :: name) :: back ∧
      (∀ other, librariesDirectory ++ '/' :: other ∉ front) ∧
        error = .conflict librariesDirectory (librariesDirectory ++ '/' :: name)

/-! ## Single items -/

theorem isProper_library_iff {name : Text} : (library name).IsProper ↔ Path.IsPlainName name :=
  ⟨IsProper.isPlainName, isProper_of_isPlainName⟩

theorem isKnown_iff {written : Text} : IsKnown written ↔ ∃ target, read written = .ok target := by
  simp only [read_eq_ok_iff]
  constructor
  · rintro (rfl | rfl | rfl | ⟨name, plain, rfl⟩)
    · exact ⟨npm, trivial, rfl⟩
    · exact ⟨jsr, trivial, rfl⟩
    · exact ⟨allLibraries, trivial, rfl⟩
    · exact ⟨library name, isProper_library_iff.2 plain, rfl⟩
  · rintro ⟨target, proper, rfl⟩
    cases target with
    | npm => exact .inl rfl
    | jsr => exact .inr (.inl rfl)
    | allLibraries => exact .inr (.inr (.inl rfl))
    | library name => exact .inr (.inr (.inr ⟨name, proper.isPlainName, rfl⟩))

theorem isKnown_text_iff {target : Target} : IsKnown target.text ↔ target.IsProper := by
  simp only [isKnown_iff, read_eq_ok_iff]
  constructor
  · rintro ⟨other, proper, same⟩
    exact text_injective same ▸ proper
  · exact fun proper => ⟨target, proper, rfl⟩

/-- A text that is no target is refused for a missing name or as a whole. -/
theorem read_of_not_isKnown {written : Text} (unknown : ¬IsKnown written) :
    read written = .error (if written = librariesDirectory ++ ['/'] then .emptyLibrary written
      else .invalid written) := by
  have notNpm : written ≠ npmDirectory := fun same => unknown (.inl same)
  have notJsr : written ≠ jsrDirectory := fun same => unknown (.inr (.inl same))
  have notAll : written ≠ librariesDirectory := fun same => unknown (.inr (.inr (.inl same)))
  simp only [read, notNpm, notJsr, notAll, if_false]
  cases found : Text.after? (librariesDirectory ++ ['/']) written with
  | none =>
      have named : written ≠ librariesDirectory ++ ['/'] := fun same => by
        rw [Text.after?_eq_some_iff.2 (same.trans (List.append_nil _).symm)] at found
        contradiction
      simp [named]
  | some name =>
      have written_eq := Text.after?_eq_some_iff.1 found
      cases name with
      | nil => simp [written_eq]
      | cons c name =>
          by_cases nested : isNestedName (c :: name) = true
          · simp [written_eq, nested]
          · have plain : Path.IsPlainName (c :: name) :=
              isProper_library_iff.1 ⟨by simp, by simpa using nested⟩
            exact absurd (.inr (.inr (.inr ⟨c :: name, plain, by simpa using written_eq⟩))) unknown

theorem read_eq_error_iff {written : Text} {error : TargetError} (earlier : List Text) :
    read written = .error error ↔ ¬IsKnown written ∧ Refuses earlier written error := by
  constructor
  · intro refused
    have unknown : ¬IsKnown written := fun known => by
      obtain ⟨target, reads⟩ := isKnown_iff.1 known
      cases refused.symm.trans reads
    rw [read_of_not_isKnown unknown, Except.error.injEq] at refused
    refine ⟨unknown, ?_⟩
    split at refused
    · exact refused ▸ .noName ‹_›
    · exact refused ▸ .unknown unknown ‹_›
  · rintro ⟨unknown, refuses⟩
    rw [read_of_not_isKnown unknown]
    cases refuses with
    | noName same => rw [if_pos same]
    | unknown _ named => rw [if_neg named]
    | library plain same => exact absurd (.inr (.inr (.inr ⟨_, plain, same⟩))) unknown
    | directory same =>
        exact absurd (same.imp_right (Or.imp_right .inl)) unknown

/-- A target that was given before is refused by its name when it is a library, and
otherwise as it is written. -/
theorem refuses_text_iff {target : Target} (proper : target.IsProper) {earlier : List Text}
    {error : TargetError} :
    Refuses earlier target.text error ↔
      target.text ∈ earlier ∧ error = duplicate target.text target := by
  constructor
  · intro refuses
    generalize written_eq : target.text = written at refuses
    cases refuses with
    | noName same =>
        have refused : read written = .error (.emptyLibrary written) := by
          rw [same]
          rfl
        rw [← written_eq, read_text proper] at refused
        cases refused
    | unknown unknown => exact absurd (written_eq ▸ isKnown_text_iff.2 proper) unknown
    | library plain same again =>
        obtain rfl : target = library _ := text_injective (written_eq.trans same)
        exact ⟨again, rfl⟩
    | directory same again =>
        obtain rfl | rfl | rfl := same
        · obtain rfl : target = npm := text_injective written_eq
          exact ⟨again, rfl⟩
        · obtain rfl : target = jsr := text_injective written_eq
          exact ⟨again, rfl⟩
        · obtain rfl : target = allLibraries := text_injective written_eq
          exact ⟨again, rfl⟩
  · rintro ⟨again, rfl⟩
    cases target with
    | npm => exact .directory (.inl rfl) again
    | jsr => exact .directory (.inr (.inl rfl)) again
    | allLibraries => exact .directory (.inr (.inr rfl)) again
    | library name => exact .library proper.isPlainName rfl again

/-! ## One item after the other -/

theorem readDistinct_cons_eq_error_iff {seen : List Target} {written : Text} {rest : List Text}
    {error : TargetError} :
    readDistinct seen (written :: rest) = .error error ↔
      read written = .error error ∨
        ∃ target, read written = .ok target ∧
          (target ∈ seen ∧ error = duplicate written target ∨
            target ∉ seen ∧ readDistinct (target :: seen) rest = .error error) := by
  rw [readDistinct]
  cases first : read written with
  | error other => simp [bind, Except.bind]
  | ok target =>
      by_cases known : target ∈ seen
      · simp [known, bind, Except.bind, throw, throwThe, MonadExceptOf.throw, eq_comm]
      · cases others : readDistinct (target :: seen) rest with
        | error other => simp [known, others, bind, Except.bind]
        | ok more => simp [known, others, bind, Except.bind, pure, Except.pure]

/-- Reading stops at the first item that cannot be read or that was seen before. -/
theorem readDistinct_eq_error_iff {seen : List Target} {items : List Text} {error : TargetError} :
    readDistinct seen items = .error error ↔
      ∃ front item back targets, items = front ++ item :: back ∧
        readDistinct seen front = .ok targets ∧
          (read item = .error error ∨
            ∃ target ∈ seen ++ targets, read item = .ok target ∧
              error = duplicate item target) := by
  induction items generalizing seen with
  | nil => simp [readDistinct]
  | cons first rest ih =>
      rw [readDistinct_cons_eq_error_iff]
      -- it does not matter whether the first target counts as seen or as read
      have moved {target other : Target} {more : List Target} :
          other ∈ (target :: seen) ++ more ↔ other ∈ seen ++ target :: more := by
        simp [or_left_comm]
      constructor
      · rintro (unread | ⟨target, reads, ⟨before, rfl⟩ | ⟨fresh, later⟩⟩)
        · exact ⟨[], first, rest, [], rfl, rfl, .inl unread⟩
        · exact ⟨[], first, rest, [], rfl, rfl, .inr ⟨target, by simpa using before, reads, rfl⟩⟩
        · obtain ⟨front, item, back, targets, rfl, frontReads, refused⟩ := ih.1 later
          simp only [moved] at refused
          exact ⟨first :: front, item, back, target :: targets, rfl,
            readDistinct_cons_eq_ok_iff.2 ⟨target, targets, reads, fresh, frontReads, rfl⟩, refused⟩
      · rintro ⟨front, item, back, targets, split, frontReads, refused⟩
        cases front with
        | nil =>
            obtain ⟨rfl, rfl⟩ := List.cons.inj split
            cases frontReads
            rcases refused with unread | ⟨target, mem, reads, rfl⟩
            · exact .inl unread
            · exact .inr ⟨target, reads, .inl ⟨by simpa using mem, rfl⟩⟩
        | cons next front =>
            obtain ⟨rfl, rfl⟩ := List.cons.inj split
            obtain ⟨target, more, reads, fresh, later, rfl⟩ :=
              readDistinct_cons_eq_ok_iff.1 frontReads
            simp only [← moved] at refused
            exact .inr ⟨target, reads,
              .inr ⟨fresh, ih.2 ⟨front, item, back, more, rfl, later, refused⟩⟩⟩

/-- Texts that are known and different are the written forms of targets, none of them twice. -/
theorem exists_readDistinct_iff {items : List Text} :
    (∃ targets, readDistinct [] items = .ok targets) ↔
      (∀ item ∈ items, IsKnown item) ∧ items.Nodup := by
  constructor
  · rintro ⟨targets, reads⟩
    obtain ⟨nodup, fresh, rfl⟩ := readDistinct_eq_ok_iff.1 reads
    refine ⟨fun item mem => ?_, nodup.map text_injective⟩
    obtain ⟨target, target_mem, rfl⟩ := List.mem_map.1 mem
    exact isKnown_text_iff.2 (fresh target target_mem).1
  · rintro ⟨known, nodup⟩
    obtain ⟨targets, rfl⟩ : items ∈ Set.range (List.map text) := by
      rw [Set.range_list_map]
      intro item mem
      obtain ⟨target, reads⟩ := isKnown_iff.1 (known item mem)
      exact ⟨target, (isProper_of_read reads).2.symm⟩
    refine ⟨targets, readDistinct_eq_ok_iff.2
      ⟨(List.nodup_map_iff text_injective).1 nodup, fun target mem => ⟨?_, by simp⟩, rfl⟩⟩
    exact isKnown_text_iff.1 (known _ (List.mem_map_of_mem mem))

theorem readDistinct_eq_error_iff_refusesFirst {items : List Text} {error : TargetError} :
    readDistinct [] items = .error error ↔ RefusesFirst items error := by
  rw [readDistinct_eq_error_iff]
  constructor
  · rintro ⟨front, item, back, targets, rfl, frontReads, refused⟩
    obtain ⟨known, nodup⟩ := exists_readDistinct_iff.1 ⟨targets, frontReads⟩
    refine ⟨front, item, back, rfl, known, nodup, ?_⟩
    obtain unread | ⟨target, mem, reads, rfl⟩ := refused
    · exact ((read_eq_error_iff front).1 unread).2
    · obtain ⟨proper, rfl⟩ := read_eq_ok_iff.1 reads
      obtain ⟨-, -, rfl⟩ := readDistinct_eq_ok_iff.1 frontReads
      exact (refuses_text_iff proper).2 ⟨List.mem_map_of_mem mem, rfl⟩
  · rintro ⟨front, item, back, rfl, known, nodup, refuses⟩
    obtain ⟨targets, frontReads⟩ := exists_readDistinct_iff.2 ⟨known, nodup⟩
    refine ⟨front, item, back, targets, rfl, frontReads, ?_⟩
    by_cases knownItem : IsKnown item
    · obtain ⟨target, reads⟩ := isKnown_iff.1 knownItem
      obtain ⟨proper, rfl⟩ := read_eq_ok_iff.1 reads
      obtain ⟨-, -, rfl⟩ := readDistinct_eq_ok_iff.1 frontReads
      obtain ⟨again, rfl⟩ := (refuses_text_iff proper).1 refuses
      exact .inr ⟨target, (List.mem_map_of_injective text_injective).1 again, reads, rfl⟩
    · exact .inl ((read_eq_error_iff front).2 ⟨knownItem, refuses⟩)

/-- When no item is refused, the items are targets, none of them twice. -/
theorem forall_not_refusesFirst_iff {items : List Text} :
    (∀ error, ¬RefusesFirst items error) ↔ ∃ targets, readDistinct [] items = .ok targets := by
  simp only [← readDistinct_eq_error_iff_refusesFirst]
  cases readDistinct [] items <;> simp

/-! ## The list as a whole -/

theorem readAll_eq_error_iff {items : List Text} {error : TargetError} :
    readAll items = .error error ↔
      readDistinct [] items = .error error ∨
        ∃ targets, readDistinct [] items = .ok targets ∧ allLibraries ∈ targets ∧
          ∃ specific, targets.find? isLibrary = some specific ∧
            error = .conflict librariesDirectory specific.text := by
  rw [readAll]
  cases readDistinct [] items with
  | error other => simp [bind, Except.bind]
  | ok targets =>
      by_cases all : allLibraries ∈ targets
      · cases specific : targets.find? isLibrary with
        | none => simp [all, specific, bind, Except.bind, pure, Except.pure]
        | some library =>
            simp [all, specific, bind, Except.bind, throw, throwThe, MonadExceptOf.throw, eq_comm]
      · simp [all, bind, Except.bind, pure, Except.pure]

theorem isLibrary_iff {target : Target} :
    target.isLibrary = true ↔ ∃ name, target = library name := by
  cases target <;> simp [isLibrary]

theorem librariesDirectory_mem_map_text_iff {targets : List Target} :
    librariesDirectory ∈ targets.map text ↔ allLibraries ∈ targets :=
  List.mem_map_of_injective (a := allLibraries) text_injective

theorem library_mem_map_text_iff {targets : List Target} {name : Text} :
    librariesDirectory ++ '/' :: name ∈ targets.map text ↔ library name ∈ targets :=
  List.mem_map_of_injective (a := library name) text_injective

theorem clashes_map_text_iff {targets : List Target} {error : TargetError} :
    Clashes (targets.map text) error ↔
      allLibraries ∈ targets ∧ ∃ specific, targets.find? isLibrary = some specific ∧
        error = .conflict librariesDirectory specific.text := by
  simp only [Clashes, librariesDirectory_mem_map_text_iff]
  refine and_congr_right fun _ => ?_
  constructor
  · rintro ⟨front, name, back, split, fresh, rfl⟩
    obtain ⟨earlier, rest, rfl, rfl, rest_eq⟩ := List.map_eq_append_iff.1 split
    obtain ⟨specific, later, rfl, specific_eq, rfl⟩ := List.map_eq_cons_iff.1 rest_eq
    obtain rfl : specific = library name := text_injective specific_eq
    refine ⟨library name, List.find?_eq_some_iff_append.2 ⟨rfl, earlier, later, rfl, ?_⟩, rfl⟩
    intro other mem
    simp only [Bool.not_eq_true', Bool.eq_false_iff, ne_eq, isLibrary_iff]
    rintro ⟨before, rfl⟩
    exact fresh before (library_mem_map_text_iff.2 mem)
  · rintro ⟨specific, found, rfl⟩
    obtain ⟨single, earlier, later, rfl, flat⟩ := List.find?_eq_some_iff_append.1 found
    obtain ⟨name, rfl⟩ := isLibrary_iff.1 single
    refine ⟨earlier.map text, name, later.map text, by simp [text], fun other mem => ?_, rfl⟩
    simpa [isLibrary] using flat _ (library_mem_map_text_iff.1 mem)

theorem isDocumented_map_text_iff {targets : List Target} :
    IsDocumented (targets.map text) ↔ Accepted targets := by
  constructor
  · rintro ⟨known, nodup, apart⟩
    refine ⟨(List.nodup_map_iff text_injective).1 nodup,
      fun target mem => isKnown_text_iff.1 (known _ (List.mem_map_of_mem mem)),
        fun all target mem => ?_⟩
    rw [Bool.eq_false_iff, ne_eq, isLibrary_iff]
    rintro ⟨name, rfl⟩
    exact apart (librariesDirectory_mem_map_text_iff.2 all) name (library_mem_map_text_iff.2 mem)
  · rintro ⟨nodup, proper, single⟩
    refine ⟨fun item mem => ?_, nodup.map text_injective, fun all name mem => ?_⟩
    · obtain ⟨target, target_mem, rfl⟩ := List.mem_map.1 mem
      exact isKnown_text_iff.2 (proper target target_mem)
    · have flat :=
        single (librariesDirectory_mem_map_text_iff.1 all) _ (library_mem_map_text_iff.1 mem)
      cases flat

theorem exists_readAll_iff {items : List Text} :
    (∃ targets, readAll items = .ok targets) ↔ IsDocumented items := by
  simp only [readAll_eq_ok_iff]
  constructor
  · rintro ⟨targets, accepted, rfl⟩
    exact isDocumented_map_text_iff.2 accepted
  · intro documented
    obtain ⟨targets, reads⟩ := exists_readDistinct_iff.2 ⟨documented.known, documented.nodup⟩
    obtain ⟨-, -, rfl⟩ := readDistinct_eq_ok_iff.1 reads
    exact ⟨targets, isDocumented_map_text_iff.1 documented, rfl⟩

theorem IsDocumented.perm {items others : List Text} (documented : IsDocumented items)
    (perm : others.Perm items) : IsDocumented others where
  known item mem := documented.known item (perm.mem_iff.1 mem)
  nodup := perm.nodup_iff.2 documented.nodup
  apart all name mem := documented.apart (perm.mem_iff.1 all) name (perm.mem_iff.1 mem)

/-- A list is accepted exactly when it is documented, whatever its order, and its targets
are written as its items are. A list that is not accepted is refused for the first item that
is no target or was given before, and only when there is none for asking for all libraries
beside a single one. -/
theorem readAll_exact (items : List Text) :
    ((∃ targets, readAll items = .ok targets) ↔ IsDocumented items) ∧
      (∀ targets, readAll items = .ok targets → targets.map text = items) ∧
      (∀ others, others.Perm items →
        ((∃ targets, readAll others = .ok targets) ↔ ∃ targets, readAll items = .ok targets)) ∧
      ∀ error, readAll items = .error error ↔
        RefusesFirst items error ∨ (∀ other, ¬RefusesFirst items other) ∧ Clashes items error := by
  refine ⟨exists_readAll_iff, fun targets reads => (readAll_eq_ok_iff.1 reads).2.symm, ?_, ?_⟩
  · intro others perm
    rw [exists_readAll_iff, exists_readAll_iff]
    exact ⟨fun documented => documented.perm perm.symm, fun documented => documented.perm perm⟩
  · intro error
    rw [readAll_eq_error_iff, readDistinct_eq_error_iff_refusesFirst, forall_not_refusesFirst_iff]
    refine or_congr_right ⟨?_, ?_⟩
    · rintro ⟨targets, reads, clash⟩
      obtain ⟨-, -, rfl⟩ := readDistinct_eq_ok_iff.1 reads
      exact ⟨⟨targets, reads⟩, clashes_map_text_iff.2 clash⟩
    · rintro ⟨⟨targets, reads⟩, clash⟩
      obtain ⟨-, -, rfl⟩ := readDistinct_eq_ok_iff.1 reads
      exact ⟨targets, reads, clashes_map_text_iff.1 clash⟩

/-- Two targets are accepted in both orders, and a library that is given twice is refused
for that although all libraries are asked for beside it. -/
theorem readAll_exact_sdk :
    [npm, library "sdk".toList].map text = [npmDirectory, "dist-libs/sdk".toList] ∧
      (∃ targets, readAll ["dist-libs/sdk".toList, npmDirectory] = .ok targets) ∧
      readAll ["dist-libs/sdk".toList, librariesDirectory, "dist-libs/sdk".toList] =
        .error (.duplicateLibrary "sdk".toList) := by
  obtain ⟨-, written, reordered, -⟩ := readAll_exact [npmDirectory, "dist-libs/sdk".toList]
  have plain : Path.IsPlainName "sdk".toList :=
    ⟨⟨by decide, by decide, by decide, by decide⟩, by decide⟩
  have known : IsKnown "dist-libs/sdk".toList := .inr (.inr (.inr ⟨_, plain, rfl⟩))
  have repeated : Refuses ["dist-libs/sdk".toList, librariesDirectory] "dist-libs/sdk".toList
      (.duplicateLibrary "sdk".toList) := .library plain rfl (by decide)
  refine ⟨written _ rfl, (reordered _ (.swap _ _ [])).2 ⟨[npm, library "sdk".toList], rfl⟩, ?_⟩
  refine ((readAll_exact _).2.2.2 _).2 (.inl ⟨_, _, [], rfl, ?_, by decide, repeated⟩)
  rintro other mem
  obtain rfl | rfl : other = "dist-libs/sdk".toList ∨ other = librariesDirectory := by
    simpa using mem
  · exact known
  · exact .inr (.inr (.inl rfl))

end DistDirectives.Target
