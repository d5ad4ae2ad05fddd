import DistDirectives.Proofs.Directive.Remains

/-!
# The end of an edited text

Nothing in an edit looks at the line feed at the end of a text: it is there because the last
line is empty, and the last line that is left decides whether it is there again. So it can get
lost, and it can come from nowhere. A text that ends with a line feed loses it exactly when its
empty last line is the only one that is left. A text that ends without one gets one exactly when
what is left ends with an empty line: a blank line behind which all lines were removed, or a line
that was replaced by nothing (`endsLine_revised_iff`).
-/

namespace DistDirectives.Edit

variable {path content text : Text} {lines : List Text}

/-- The text ends with a line feed. -/
def EndsLine (text : Text) : Prop := text.getLast? = some '\n'

instance (text : Text) : Decidable (EndsLine text) :=
  inferInstanceAs (Decidable (text.getLast? = some '\n'))

/-- The last line that is left is empty, and it is not the only one. -/
def LeavesEmptyEnd (path : Text) (lines : List Text) : Prop :=
  ∃ front raw back, lines = front ++ raw :: back ∧
    (∃ earlier ∈ front, emitted path earlier ≠ none) ∧
    emitted path raw = some [] ∧ ∀ later ∈ back, emitted path later = none

theorem left_ne_nil_iff : lines.filterMap (emitted path) ≠ [] ↔
    ∃ raw ∈ lines, emitted path raw ≠ none := by
  rw [ne_eq, List.filterMap_eq_nil_iff, not_forall]
  exact exists_congr fun _ => Classical.not_imp

/-- A text ends with a line feed when its last line is empty and another one stands in front. -/
theorem endsLine_joinWith_iff (oneLine : ∀ raw ∈ lines, '\n' ∉ raw) :
    EndsLine (Text.joinWith '\n' lines) ↔ ∃ front, front ≠ [] ∧ lines = front ++ [[]] := by
  rw [EndsLine, Text.getLast?_joinWith_eq_iff oneLine, List.getLast?_eq_some_iff]
  constructor
  · rintro ⟨⟨front, rfl⟩, several⟩
    refine ⟨front, ?_, rfl⟩
    rintro rfl
    simp at several
  · rintro ⟨front, nonempty, rfl⟩
    refine ⟨⟨front, rfl⟩, ?_⟩
    simpa [List.length_pos_iff] using nonempty

theorem endsLine_iff : EndsLine content ↔
    ∃ front, front ≠ [] ∧ Text.splitOn '\n' content = front ++ [[]] := by
  rw [← endsLine_joinWith_iff fun raw => Text.not_mem_of_mem_splitOn, Text.joinWith_splitOn]

theorem leavesEmptyEnd_iff :
    LeavesEmptyEnd path lines ↔ ∃ front, front ≠ [] ∧
      lines.filterMap (emitted path) = front ++ [[]] := by
  constructor
  · rintro ⟨front, raw, back, rfl, others, empty, gone⟩
    refine ⟨front.filterMap (emitted path), left_ne_nil_iff.2 others, ?_⟩
    rw [List.filterMap_append, List.filterMap_cons_some empty, List.filterMap_eq_nil_iff.2 gone]
  · rintro ⟨left, nonempty, split⟩
    obtain ⟨front, rest, rfl, rfl, last⟩ := List.filterMap_eq_append_iff.1 split
    obtain ⟨between, raw, back, rfl, skipped, empty, gone⟩ := List.filterMap_eq_cons_iff.1 last
    obtain ⟨earlier, mem, leaves⟩ := left_ne_nil_iff.1 nonempty
    exact ⟨front ++ between, raw, back, by simp, ⟨earlier, by simp [mem], leaves⟩, empty,
      List.filterMap_eq_nil_iff.1 gone⟩

theorem endsLine_remains_iff (path content : Text) :
    EndsLine (remains path content) ↔ LeavesEmptyEnd path (Text.splitOn '\n' content) := by
  rw [remains, endsLine_joinWith_iff (lineFeed_not_mem_left path content), leavesEmptyEnd_iff]

/-- A text that ends with a line feed still does, provided that another line is left than the empty
one behind it. A text that ends without one still does, unless the last line that is left is empty
and another one is left in front of it. -/
theorem endsLine_revised_iff (revised : (apply path content).edit = .revised text) :
    (EndsLine content →
      (EndsLine text ↔ ∃ raw ∈ (Text.splitOn '\n' content).dropLast, emitted path raw ≠ none)) ∧
      (¬EndsLine content →
        (¬EndsLine text ↔ ¬LeavesEmptyEnd path (Text.splitOn '\n' content))) := by
  obtain ⟨rfl, -⟩ := eq_remains_of_revised revised
  rw [endsLine_remains_iff]
  refine ⟨fun ends => ?_, fun _ => Iff.rfl⟩
  obtain ⟨front, -, lines_eq⟩ := endsLine_iff.1 ends
  have empty : outcome path [] = {} := outcome_of_not_mentioned (by decide)
  have last : emitted path [] = some [] := emitted_eq_some_self_iff.2 (by rw [empty])
  rw [leavesEmptyEnd_iff, lines_eq, List.dropLast_concat, ← left_ne_nil_iff, List.filterMap_append,
    List.filterMap_cons_some last, List.filterMap_nil]
  constructor
  · rintro ⟨left, nonempty, split⟩
    exact List.append_cancel_right split ▸ nonempty
  · intro nonempty
    exact ⟨_, nonempty, rfl⟩

/-- Behind a line that stays the line feed is kept, and behind a blank line that ends the text
when the line below it is gone there is a new one. -/
theorem endsLine_revised_iff_small :
    ((apply "dist-npm/a.js".toList "a // <dler-remove-line>\nb\n".toList).edit =
      .revised "b\n".toList ∧
      EndsLine "a // <dler-remove-line>\nb\n".toList ∧ EndsLine "b\n".toList) ∧
      (apply "dist-npm/a.js".toList "a\n\nb // <dler-remove-line>".toList).edit =
        .revised "a\n".toList ∧
        ¬EndsLine "a\n\nb // <dler-remove-line>".toList ∧
          LeavesEmptyEnd "dist-npm/a.js".toList
            (Text.splitOn '\n' "a\n\nb // <dler-remove-line>".toList) := by
  constructor
  · have revised : (apply "dist-npm/a.js".toList "a // <dler-remove-line>\nb\n".toList).edit =
        .revised "b\n".toList := by decide +kernel
    have ends : EndsLine "a // <dler-remove-line>\nb\n".toList := by decide
    have stays : "b".toList ∈ (Text.splitOn '\n' "a // <dler-remove-line>\nb\n".toList).dropLast ∧
        emitted "dist-npm/a.js".toList "b".toList ≠ none := by decide +kernel
    exact ⟨revised, ends, ((endsLine_revised_iff revised).1 ends).2 ⟨_, stays⟩⟩
  · have revised : (apply "dist-npm/a.js".toList "a\n\nb // <dler-remove-line>".toList).edit =
        .revised "a\n".toList := by decide +kernel
    have unended : ¬EndsLine "a\n\nb // <dler-remove-line>".toList := by decide
    have ends : EndsLine "a\n".toList := by decide
    have blank := not_iff_not.1 ((endsLine_revised_iff revised).2 unended)
    exact ⟨revised, unended, blank.1 ends⟩

/-- Removing all lines loses the line feed. Removing the line behind a blank one adds one, and so
does replacing the last line by nothing. -/
theorem endsLine_not_preserved :
    ((apply "dist-npm/a.js".toList "a // <dler-remove-line>\n".toList).edit = .revised [] ∧
      EndsLine "a // <dler-remove-line>\n".toList ∧ ¬EndsLine []) ∧
      ((apply "dist-npm/a.js".toList "a\n\nb // <dler-remove-line>".toList).edit =
        .revised "a\n".toList ∧
        ¬EndsLine "a\n\nb // <dler-remove-line>".toList ∧ EndsLine "a\n".toList) ∧
        (apply "dist-npm/a.js".toList "a\nb // <dler-replace-line-to ``>".toList).edit =
          .revised "a\n".toList ∧
          ¬EndsLine "a\nb // <dler-replace-line-to ``>".toList := by
  decide +kernel

end DistDirectives.Edit
