import DistDirectives.Proofs.Directive.Remains

/-!
# Editing a text that was edited

When nothing that is put in place of a line mentions a token, a revised text holds lines of two
kinds only: those that were kept, which are kept again, and those that mention no token. So a
second edit for the same path has nothing left to do. It still warns, but only about lines that
were kept, and these have moved up by as many places as there were lines removed in front of them
(`apply_again`).
-/

namespace DistDirectives.Edit

open Directive (token)
open Text (occurrences)

variable {path content text raw : Text} {lines back : List Text}

/-! ## Numbers of lines -/

/-- Whether the line under a number, counted from one, stays as it is. -/
def keepsAt (path : Text) (lines : List Text) (number : Nat) : Bool :=
  lines[number - 1]?.any fun raw => (outcome path raw).isNoop

/-- The number of lines in front of a numbered one that leave nothing. -/
def removedBefore (path : Text) (lines : List Text) (number : Nat) : Nat :=
  (lines.take (number - 1)).countP fun raw => emitted path raw = none

/-- A warning under the number that its line has in the new text. -/
def renumbered (path : Text) (lines : List Text) (warning : LineWarning) : LineWarning :=
  { warning with line := warning.line - removedBefore path lines warning.line }

theorem keepsAt_append (path : Text) (front back : List Text) (raw : Text) :
    keepsAt path (front ++ raw :: back) (front.length + 1) = (outcome path raw).isNoop := by
  simp [keepsAt]

/-- A line stands behind as many lines as those in front of it have left. -/
theorem number_sub_removedBefore (path : Text) (front back : List Text) :
    front.length + 1 - removedBefore path (front ++ back) (front.length + 1) =
      (front.filterMap (emitted path)).length + 1 := by
  have removed : removedBefore path (front ++ back) (front.length + 1) =
      front.countP fun raw => emitted path raw = none := by
    simp [removedBefore]
  have all := List.length_eq_countP_add_countP (fun raw => (emitted path raw).isSome) (l := front)
  have gone : (front.countP fun raw => emitted path raw = none) =
      front.countP fun raw => ¬(emitted path raw).isSome = true := by
    refine List.countP_congr fun raw _ => ?_
    cases emitted path raw <;> simp
  rw [removed, gone, List.length_filterMap_eq_countP]
  omega

/-! ## Warnings about the lines that are left -/

/-- Nothing that is put in place of a line mentions a token. -/
def PutsNoToken (path : Text) (lines : List Text) : Prop :=
  ∀ raw ∈ lines, ∀ text, (outcome path raw).verdict = .replace text → ¬token <:+: text

/-- Whether something is put in place of a line that mentions a token. -/
def putsToken (path raw : Text) : Bool :=
  match (outcome path raw).verdict with
  | .replace text => Directive.mentioned text
  | .keep | .removeLine | .removeFile => false

theorem putsNoToken_iff : PutsNoToken path lines ↔ ∀ raw ∈ lines, putsToken path raw = false := by
  refine forall₂_congr fun raw _ => ?_
  cases verdict : (outcome path raw).verdict with
  | replace text => simp [putsToken, verdict, ← Directive.mentioned_iff]
  | keep => simp [putsToken, verdict]
  | removeLine => simp [putsToken, verdict]
  | removeFile => simp [putsToken, verdict]

instance (path : Text) (lines : List Text) : Decidable (PutsNoToken path lines) :=
  decidable_of_iff _ putsNoToken_iff.symm

theorem outcome_put (absent : ¬token <:+: text) : outcome path (text ++ (setAside raw).2) = {} := by
  apply outcome_of_not_mentioned
  rw [← Text.occurrences_pos_iff, occurrences_append_carriage, Text.occurrences_pos_iff]
  exact absent

/-- A warning about a line that is kept is given again, under the line's new number. -/
theorem map_renumbered_of_keep (keeps : (outcome path raw).verdict = .keep)
    (front back : List Text) :
    ((warningAt path (front.length + 1) raw).toList.filter
        fun warning => keepsAt path (front ++ raw :: back) warning.line).map
      (renumbered path (front ++ raw :: back)) =
        (warningAt path ((front.filterMap (emitted path)).length + 1) raw).toList := by
  have stays : (outcome path raw).isNoop = true := by simp [Outcome.isNoop, keeps]
  rw [warningAt, warningAt]
  cases (outcome path raw).warning with
  | none => rfl
  | some warning =>
      simp [keepsAt_append, stays, renumbered, number_sub_removedBefore]

/-- A warning about a line that changes is not given again. -/
theorem map_renumbered_of_ne_keep (changes : (outcome path raw).verdict ≠ .keep)
    (front back : List Text) :
    ((warningAt path (front.length + 1) raw).toList.filter
        fun warning => keepsAt path (front ++ raw :: back) warning.line).map
      (renumbered path (front ++ raw :: back)) = [] := by
  have moves : (outcome path raw).isNoop = false := by simp [Outcome.isNoop, changes]
  rw [warningAt]
  cases (outcome path raw).warning with
  | none => rfl
  | some warning => simp [keepsAt_append, moves]

/-- Only lines that are kept are warned about again, under the numbers that they then have. -/
theorem warningsFrom_filterMap (front : List Text) (inert : PutsNoToken path back) :
    warningsFrom path ((front.filterMap (emitted path)).length + 1)
      (back.filterMap (emitted path)) =
      ((warningsFrom path (front.length + 1) back).filter
        fun warning => keepsAt path (front ++ back) warning.line).map
          (renumbered path (front ++ back)) := by
  -- the lines in front of those that are passed decide what the numbers become
  induction back generalizing front with
  | nil => simp [warningsFrom]
  | cons raw back ih =>
      have later := ih (front ++ [raw]) fun other mem => inert other (by simp [mem])
      rw [List.append_assoc, List.singleton_append, List.length_append, List.length_singleton,
        List.filterMap_append, List.length_append] at later
      rw [warningsFrom_cons, List.filter_append, List.map_append, ← later]
      rcases emitted_cases path raw with ⟨keeps, emits⟩ | ⟨text, replaces, emits, -, -⟩ |
        ⟨changes, gone⟩
      · rw [map_renumbered_of_keep keeps, List.filterMap_cons_some emits,
          List.filterMap_cons_some emits,
          warningsFrom_cons]
        rfl
      · have silent (number : Nat) : warningAt path number (text ++ (setAside raw).2) = none := by
          rw [warningAt, outcome_put (inert raw (by simp) text replaces)]
          rfl
        rw [map_renumbered_of_ne_keep (by simp [replaces]), List.filterMap_cons_some emits,
          List.filterMap_cons_some emits, warningsFrom_cons, silent]
        rfl
      · rw [map_renumbered_of_ne_keep changes, List.filterMap_cons_none gone,
          List.filterMap_cons_none gone]
        rfl

/-! ## The second edit -/

theorem keeps_of_emitted (inert : PutsNoToken path lines) (mem : raw ∈ lines) {line : Text}
    (leaves : emitted path raw = some line) : (outcome path line).verdict = .keep := by
  rcases emitted_cases path raw with ⟨keeps, emits⟩ | ⟨text, replaces, emits, -, -⟩ | ⟨-, gone⟩
  · rw [← Option.some.inj (emits.symm.trans leaves), keeps]
  · rw [← Option.some.inj (emits.symm.trans leaves), outcome_put (inert raw mem text replaces)]
  · exact absurd (gone.symm.trans leaves) (by simp)

/-- The lines of the new text are the ones that were left. When there are none, it is empty. -/
theorem splitOn_remains (path content : Text) :
    Text.splitOn '\n' (remains path content) =
      (Text.splitOn '\n' content).filterMap (emitted path) ∨
      (Text.splitOn '\n' content).filterMap (emitted path) = [] ∧
        Text.splitOn '\n' (remains path content) = [[]] := by
  by_cases nothing : (Text.splitOn '\n' content).filterMap (emitted path) = []
  · exact .inr ⟨nothing, by rw [remains, nothing]; rfl⟩
  · exact .inl (Text.splitOn_joinWith nothing (lineFeed_not_mem_left path content))

/-- A text whose lines are all kept is not changed. -/
theorem apply_of_keeps
    (keeps : ∀ raw ∈ Text.splitOn '\n' content, (outcome path raw).verdict = .keep) :
    apply path content =
      { edit := .unchanged
        changedLines := 0
        warnings := warningsFrom path 1 (Text.splitOn '\n' content) } := by
  have unchanged : changes path (Text.splitOn '\n' content) = 0 := by
    simpa [changes, List.countP_eq_zero, emitted_eq_some_self_iff] using keeps
  have same := (remains_eq_self_iff path content).2 unchanged
  have reads : Reads path content _ := .edited (areLines_iff.2 rfl)
    (fun raw mem removes => by simp [RemovesFile, keeps raw mem] at removes) rfl
  rw [reads.apply_eq, ← remains, unchanged, if_pos same]

/-- A second edit for the same path leaves the text as it is, when nothing that the first one put
in place of a line mentions a token. It repeats the warnings about lines that were kept. -/
theorem apply_again (revised : (apply path content).edit = .revised text)
    (inert : PutsNoToken path (Text.splitOn '\n' content)) :
    apply path text =
      { edit := .unchanged
        changedLines := 0
        warnings := ((apply path content).warnings.filter fun warning =>
          keepsAt path (Text.splitOn '\n' content) warning.line).map
            (renumbered path (Text.splitOn '\n' content)) } := by
  obtain ⟨-, applied⟩ := apply_of_stays (by rw [revised]; simp)
  obtain ⟨rfl, -⟩ := eq_remains_of_revised revised
  have again := warningsFrom_filterMap [] inert
  rw [List.filterMap_nil, List.length_nil, Nat.zero_add, List.nil_append] at again
  rw [applied, ← again]
  rcases splitOn_remains path content with lines | ⟨nothing, lines⟩
  · have keeps :
        ∀ line ∈ Text.splitOn '\n' (remains path content), (outcome path line).verdict = .keep := by
      intro line mem
      rw [lines] at mem
      obtain ⟨raw, source, leaves⟩ := List.mem_filterMap.1 mem
      exact keeps_of_emitted inert source leaves
    rw [apply_of_keeps keeps, lines]
  · -- an empty text has one line, about which there is nothing to say
    have empty : outcome path [] = {} := outcome_of_not_mentioned (by decide)
    rw [apply_of_keeps (by simp [lines, empty]), lines, nothing, warningsFrom_cons,
      warningAt, empty]
    rfl

/-- The second line becomes the first. -/
theorem apply_again_mixed :
    (apply "dist-npm/a.js".toList mixedText).edit = .revised "b // <dler-x>\nd\r\n".toList ∧
      PutsNoToken "dist-npm/a.js".toList (Text.splitOn '\n' mixedText) ∧
        (apply "dist-npm/a.js".toList mixedText).warnings = [⟨2, .unknownDirective ['x']⟩] ∧
          apply "dist-npm/a.js".toList "b // <dler-x>\nd\r\n".toList =
            { edit := .unchanged
              changedLines := 0
              warnings := [⟨1, .unknownDirective ['x']⟩] } := by
  have revised :
      (apply "dist-npm/a.js".toList mixedText).edit = .revised "b // <dler-x>\nd\r\n".toList := by
    decide +kernel
  have warned :
      (apply "dist-npm/a.js".toList mixedText).warnings = [⟨2, .unknownDirective ['x']⟩] := by
    decide +kernel
  have inert : PutsNoToken "dist-npm/a.js".toList (Text.splitOn '\n' mixedText) := by decide +kernel
  refine ⟨revised, inert, warned, (apply_again revised inert).trans ?_⟩
  rw [warned]
  decide +kernel

end DistDirectives.Edit
