import Mathlib.Data.List.Perm.Basic
import DistDirectives.Proofs.Path.Segments
import DistDirectives.Target

/-!
# Accepted targets

A text is read as a target exactly when it is the written form of a proper one, and
an accepted list holds no target twice and does not ask for all libraries beside a
single one. So the directories of the targets of a list are apart from each other.
-/

namespace DistDirectives.Target

/-- A target that can be asked for: the name of a library is one segment. -/
def IsProper : Target → Prop
  | library name => name ≠ [] ∧ isNestedName name = false
  | npm | jsr | allLibraries => True

/-- What is read as a target is the written form of a proper one. -/
theorem isProper_of_read {written : Text} {target : Target} (accepted : read written = .ok target) :
    target.IsProper ∧ written = target.text := by
  simp only [read] at accepted
  split at accepted
  · cases accepted
    exact ⟨trivial, ‹_›⟩
  split at accepted
  · cases accepted
    exact ⟨trivial, ‹_›⟩
  split at accepted
  · cases accepted
    exact ⟨trivial, ‹_›⟩
  cases found : Text.after? (librariesDirectory ++ ['/']) written with
  | none => simp [found] at accepted
  | some name =>
      have written_eq := Text.after?_eq_some_iff.1 found
      cases name with
      | nil => simp [found] at accepted
      | cons c name =>
          simp only [found] at accepted
          split at accepted
          · contradiction
          · rename_i single
            cases accepted
            exact ⟨⟨by simp, by simpa using single⟩, by simpa [text] using written_eq⟩

/-- The other targets are written with fewer characters than a library. -/
theorem text_library_ne {name directory : Text}
    (short : directory.length ≤ librariesDirectory.length) : text (library name) ≠ directory :=
  fun same => by
    have long : librariesDirectory.length < (text (library name)).length := by simp [text]
    rw [same] at long
    exact Nat.not_lt.2 short long

/-- No two targets are written in the same way. -/
theorem text_injective : Function.Injective text := by
  intro left right same
  have short : ∀ flat ∈ [npm, jsr, allLibraries],
      flat.text.length ≤ librariesDirectory.length := by decide
  cases left with
  | library name =>
      cases right with
      | library other => simpa [text] using same
      | npm | jsr | allLibraries => exact absurd same (text_library_ne (short _ (by simp)))
  | npm | jsr | allLibraries =>
      cases right with
      | library name => exact absurd same.symm (text_library_ne (short _ (by simp)))
      | npm | jsr | allLibraries => first | rfl | exact absurd same (by decide)

/-- A proper target is read from its written form. -/
theorem read_text {target : Target} (proper : target.IsProper) : read target.text = .ok target := by
  cases target with
  | npm => rfl
  | jsr => rfl
  | allLibraries => rfl
  | library name =>
      rcases proper with ⟨nonempty, single⟩
      have found : Text.after? (librariesDirectory ++ ['/']) (text (library name)) = some name :=
        Text.after?_eq_some_iff.2 (by simp [text])
      have notNpm : text (library name) ≠ npmDirectory := text_library_ne (by decide)
      have notJsr : text (library name) ≠ jsrDirectory := text_library_ne (by decide)
      have notAll : text (library name) ≠ librariesDirectory := text_library_ne (by decide)
      cases name with
      | nil => exact absurd rfl nonempty
      | cons c name => simp [read, found, notNpm, notJsr, notAll, single]

/-- A text is read as a target exactly when it is the target as it is written. -/
theorem read_eq_ok_iff {written : Text} {target : Target} :
    read written = .ok target ↔ target.IsProper ∧ written = target.text := by
  constructor
  · exact isProper_of_read
  · rintro ⟨proper, rfl⟩
    exact read_text proper

/-- The name of a library that can be asked for is one plain name. -/
theorem IsProper.isPlainName {name : Text} (proper : (library name).IsProper) :
    Path.IsPlainName name := by
  rcases proper with ⟨nonempty, single⟩
  simp only [isNestedName, Bool.or_eq_false_iff, decide_eq_false_iff_not] at single
  rcases single with ⟨⟨⟨no_slash, no_backslash⟩, ne_dot⟩, ne_dots⟩
  exact ⟨⟨nonempty, ne_dot, by simpa using no_slash, by simpa using no_backslash⟩, ne_dots⟩

/-- A plain name is the name of one library directory. -/
theorem isProper_of_isPlainName {name : Text} (plain : Path.IsPlainName name) :
    (library name).IsProper := by
  have single : isNestedName name = false := by
    simp [isNestedName, plain.no_slash, plain.no_backslash, plain.ne_dot, plain.ne_dots]
  exact ⟨plain.ne_nil, single⟩

theorem readDistinct_cons_eq_ok_iff {seen targets : List Target} {written : Text}
    {rest : List Text} :
    readDistinct seen (written :: rest) = .ok targets ↔
      ∃ target more, read written = .ok target ∧ target ∉ seen ∧
        readDistinct (target :: seen) rest = .ok more ∧ targets = target :: more := by
  rw [readDistinct]
  cases first : read written with
  | error error => simp [bind, Except.bind]
  | ok target =>
      by_cases known : target ∈ seen
      · simp [known, bind, Except.bind, throw, throwThe, MonadExceptOf.throw]
      cases others : readDistinct (target :: seen) rest with
      | error error => simp [known, others, bind, Except.bind]
      | ok more => simp [known, others, bind, Except.bind, pure, Except.pure, eq_comm]

/-- Texts are read one by one as the proper targets that they are the written forms of, as
long as none is given twice. -/
theorem readDistinct_eq_ok_iff {seen targets : List Target} {written : List Text} :
    readDistinct seen written = .ok targets ↔
      targets.Nodup ∧ (∀ target ∈ targets, target.IsProper ∧ target ∉ seen) ∧
        written = targets.map text := by
  induction written generalizing seen targets with
  | nil =>
      constructor
      · rintro ⟨⟩
        simp
      · rintro ⟨_, _, none_written⟩
        rw [List.map_eq_nil_iff.1 none_written.symm]
        rfl
  | cons first rest ih =>
      rw [readDistinct_cons_eq_ok_iff]
      constructor
      · rintro ⟨target, more, readFirst, unseen, readRest, rfl⟩
        obtain ⟨proper, rfl⟩ := read_eq_ok_iff.1 readFirst
        obtain ⟨nodup, fresh, rfl⟩ := ih.1 readRest
        refine ⟨List.nodup_cons.2 ⟨fun again => (fresh target again).2 (by simp), nodup⟩, ?_, rfl⟩
        intro other mem
        rcases List.mem_cons.1 mem with rfl | later
        · exact ⟨proper, unseen⟩
        · exact ⟨(fresh other later).1, fun inSeen => (fresh other later).2 (by simp [inSeen])⟩
      · rintro ⟨nodup, fresh, written_eq⟩
        cases targets with
        | nil => contradiction
        | cons target more =>
            rw [List.map_cons, List.cons.injEq] at written_eq
            obtain ⟨absent, nodupMore⟩ := List.nodup_cons.1 nodup
            obtain ⟨proper, unseen⟩ := fresh target (by simp)
            refine ⟨target, more, read_eq_ok_iff.2 ⟨proper, written_eq.1⟩, unseen, ih.2 ?_, rfl⟩
            refine ⟨nodupMore, fun other mem => ⟨(fresh other (by simp [mem])).1, ?_⟩, written_eq.2⟩
            rintro inSeen
            rcases List.mem_cons.1 inSeen with rfl | before
            · exact absent mem
            · exact (fresh other (by simp [mem])).2 before

/-- What is known of an accepted list of targets. -/
structure Accepted (targets : List Target) : Prop where
  nodup : targets.Nodup
  proper : ∀ target ∈ targets, target.IsProper
  single : allLibraries ∈ targets → ∀ target ∈ targets, target.isLibrary = false

/-- A list is accepted exactly when it is the written form of one that makes sense. -/
theorem readAll_eq_ok_iff {written : List Text} {targets : List Target} :
    readAll written = .ok targets ↔ Accepted targets ∧ written = targets.map text := by
  constructor
  · intro read
    rw [readAll] at read
    cases each : readDistinct [] written with
    | error error => simp [each, bind, Except.bind] at read
    | ok found =>
        obtain ⟨nodup, fresh, written_eq⟩ := readDistinct_eq_ok_iff.1 each
        have proper : ∀ target ∈ found, target.IsProper := fun target mem => (fresh target mem).1
        by_cases all : allLibraries ∈ found
        · cases specific : found.find? isLibrary with
          | some library =>
              simp [each, all, specific, bind, Except.bind, throw, throwThe,
                MonadExceptOf.throw] at read
          | none =>
              simp only [each, all, specific, bind, Except.bind, pure, Except.pure,
                List.contains_eq_mem, decide_true, if_true] at read
              cases read
              refine ⟨⟨nodup, proper, fun _ target mem => ?_⟩, written_eq⟩
              simpa using List.find?_eq_none.1 specific target mem
        · simp only [each, all, bind, Except.bind, pure, Except.pure,
            List.contains_eq_mem, decide_false, Bool.false_eq_true, if_false] at read
          cases read
          exact ⟨⟨nodup, proper, fun present => absurd present all⟩, written_eq⟩
  · rintro ⟨accepted, rfl⟩
    have each : readDistinct [] (targets.map text) = .ok targets :=
      readDistinct_eq_ok_iff.2
        ⟨accepted.nodup, fun target mem => ⟨accepted.proper target mem, by simp⟩, rfl⟩
    rw [readAll, each]
    by_cases all : allLibraries ∈ targets
    · have noneSpecific : targets.find? isLibrary = none :=
        List.find?_eq_none.2 fun target mem => by simp [accepted.single all target mem]
      simp [all, noneSpecific, bind, Except.bind, pure, Except.pure]
    · simp [all, bind, Except.bind, pure, Except.pure]

theorem accepted_of_readAll {written : List Text} {targets : List Target}
    (read : readAll written = .ok targets) : Accepted targets :=
  (readAll_eq_ok_iff.1 read).1

/-- Some of the targets of an accepted list are accepted by themselves. -/
theorem Accepted.mono {targets part : List Target} (accepted : Accepted targets)
    (nodup : part.Nodup)
    (inside : ∀ target ∈ part, target ∈ targets) : Accepted part :=
  ⟨nodup, fun target mem => accepted.proper target (inside target mem),
    fun all target mem => accepted.single (inside _ all) target (inside target mem)⟩

/-- A list that is accepted as a whole is accepted in two parts. -/
theorem readAll_append {first second : List Text} {targets : List Target}
    (read : readAll (first ++ second) = .ok targets) :
    ∃ front back, targets = front ++ back ∧ readAll first = .ok front ∧
      readAll second = .ok back := by
  obtain ⟨accepted, written⟩ := readAll_eq_ok_iff.1 read
  obtain ⟨front, back, rfl, rfl, rfl⟩ := List.append_eq_map_iff.1 written
  have nodup := List.nodup_append.1 accepted.nodup
  exact ⟨front, back, rfl,
    readAll_eq_ok_iff.2 ⟨accepted.mono nodup.1 fun _ => List.mem_append_left _, rfl⟩,
    readAll_eq_ok_iff.2 ⟨accepted.mono nodup.2.1 fun _ => List.mem_append_right _, rfl⟩⟩

/-- An accepted list is accepted in any order. -/
theorem readAll_of_perm {written others : List Text} {targets : List Target}
    (read : readAll written = .ok targets) (perm : others.Perm written) :
    ∃ more, more.Perm targets ∧ readAll others = .ok more := by
  obtain ⟨accepted, rfl⟩ := readAll_eq_ok_iff.1 read
  have mapped : Relation.Comp (· = List.map text ·) List.Perm others targets := by
    rw [List.eq_map_comp_perm]
    exact perm
  obtain ⟨more, rfl, morePerm⟩ := mapped
  refine ⟨more, morePerm,
    readAll_eq_ok_iff.2 ⟨accepted.mono (morePerm.nodup_iff.2 accepted.nodup) ?_, rfl⟩⟩
  exact fun _ => morePerm.mem_iff.1

end DistDirectives.Target
