import DistDirectives.Proofs.Directive.Edit
import DistDirectives.Proofs.Text.Joining
import DistDirectives.Proofs.Text.Occurrences

/-!
# What is left of a text

A line changes at the price of a token. A line that is removed mentions one, and what is put in
place of a line stood behind one, on the same line (`exists_token_of_replace`). So what a text
leaves is a part of it, in its order (`remains_sublist`), and for each changed line it mentions
one token less (`changes_add_occurrences_le`).

This is why lines can be counted instead of comparing texts: no removals and replacements,
whatever they are, add up to the old text (`changedLines_exact`).
-/

namespace DistDirectives.Edit

open Directive (token)
open Text (occurrences)

variable {path raw text : Text}

/-! ## Changes of one line -/

theorem token_ne_nil : token ≠ [] := by
  decide

theorem eq_of_chosen_eq_replace {holds : Bool} {replacement : Text} {alternative : Option Text}
    (replaces : Outcome.chosen holds replacement alternative = .replace text) :
    text = replacement ∨ alternative = some text := by
  cases holds with
  | true => exact .inl (Verdict.replace.inj replaces).symm
  | false =>
      cases alternative with
      | none => cases replaces
      | some other => exact .inr (congrArg some (Verdict.replace.inj replaces))

/-- Only a line replacement replaces a line, by its replacement or by its alternative. -/
theorem exists_read_of_replace (replaces : (outcome path raw).verdict = .replace text) :
    ∃ replacement condition alternative,
      Directive.read (setAside raw).1 =
        .directive (.replaceLine replacement condition alternative) ∧
        (text = replacement ∨ alternative = some text) := by
  rw [outcome, Directive.evaluate] at replaces
  cases reads : Directive.read (setAside raw).1 with
  | nothing => simp [reads, Outcome.ofReading] at replaces
  | unknown name => simp [reads, Outcome.ofReading] at replaces
  | malformed name body => simp [reads, Outcome.ofReading] at replaces
  | directive directive =>
      rw [reads, Outcome.ofReading] at replaces
      cases directive with
      | removeFile => cases replaces
      | removeLine => cases replaces
      | removeComment =>
          simp only [Outcome.ofDirective] at replaces
          split at replaces <;> cases replaces
      | replaceLine replacement condition alternative =>
          refine ⟨replacement, condition, alternative, rfl, ?_⟩
          cases condition with
          | none => exact eq_of_chosen_eq_replace replaces
          | some condition =>
              cases supported : Condition.read? condition with
              | none =>
                  simp only [Outcome.ofDirective, supported] at replaces
                  exact eq_of_chosen_eq_replace replaces
              | some condition =>
                  simp only [Outcome.ofDirective, supported] at replaces
                  exact eq_of_chosen_eq_replace replaces

/-- What is put in place of a line stood behind a token of that line. -/
theorem exists_token_of_replace (replaces : (outcome path raw).verdict = .replace text) :
    ∃ front back, (setAside raw).1 = front ++ (token ++ back) ∧ text <:+: back := by
  obtain ⟨replacement, condition, alternative, reads, offered⟩ := exists_read_of_replace replaces
  obtain ⟨o, first, means⟩ := Directive.exists_isFirst_of_read reads (by simp)
  have inBody : text <:+: o.body := by
    generalize o.name = name at means
    cases means with
    | replaceLine isWritten => exact isWritten.isInfix offered
  refine ⟨o.before ++ (Directive.commentMarker ++ (o.blanks ++ o.remark)), o.behindToken, ?_, ?_⟩
  · rw [first.isIn.line_eq, Directive.Occurrence.line, Directive.Occurrence.fromMarker]
    simp only [List.append_assoc]
  · exact inBody.trans ⟨o.name, '>' :: o.after, by simp [Directive.Occurrence.behindToken]⟩

/-- A line that changes mentions a token. -/
theorem isInfix_of_ne_keep (changes : (outcome path raw).verdict ≠ .keep) : token <:+: raw := by
  by_contra absent
  rw [outcome_of_not_mentioned absent] at changes
  exact changes rfl

/-- A carriage return at the end belongs to no token. -/
theorem occurrences_append_carriage (front raw : Text) :
    occurrences token (front ++ (setAside raw).2) = occurrences token front := by
  rcases (setAside_eq_iff.1 (Prod.eta (setAside raw)).symm).2 with carriage | ⟨carriage, -⟩
  · have apart := Text.occurrences_append_cons token_ne_nil (by decide : '\r' ∉ token) front []
    rw [carriage, apart, Text.occurrences_nil token_ne_nil, Nat.add_zero]
  · rw [carriage, List.append_nil]

/-- What takes the place of a line is a part of it that mentions fewer tokens. -/
theorem emitted_of_replace (replaces : (outcome path raw).verdict = .replace text) :
    emitted path raw = some (text ++ (setAside raw).2) ∧
      (text ++ (setAside raw).2).Sublist raw ∧
        occurrences token (text ++ (setAside raw).2) < occurrences token raw := by
  obtain ⟨front, back, line_eq, inBack⟩ := exists_token_of_replace replaces
  have raw_eq : raw = front ++ (token ++ back) ++ (setAside raw).2 := by
    rw [← line_eq, append_setAside]
  refine ⟨by rw [emitted, replaces], ?_, ?_⟩
  · have inLine : text.Sublist (front ++ (token ++ back)) :=
      inBack.sublist.trans ((List.sublist_append_right token back).trans
        (List.sublist_append_right front _))
    conv_rhs => rw [raw_eq]
    exact inLine.append (List.Sublist.refl _)
  · obtain ⟨before, after, rfl⟩ := inBack
    have inFront :=
      Text.add_le_occurrences_append token_ne_nil (front ++ token) (before ++ text ++ after)
    have inBack := Text.add_le_occurrences_append token_ne_nil before (text ++ after)
    have inText := Text.add_le_occurrences_append token_ne_nil text after
    have one : 0 < occurrences token (front ++ token) :=
      Text.occurrences_pos_iff.2 (List.suffix_append front token).isInfix
    rw [occurrences_append_carriage]
    conv_rhs => rw [raw_eq, occurrences_append_carriage]
    simp only [List.append_assoc] at inFront inBack ⊢
    omega

/-- A line is kept, or a part of it that mentions fewer tokens takes its place, or it goes. -/
theorem emitted_cases (path raw : Text) :
    (outcome path raw).verdict = .keep ∧ emitted path raw = some raw ∨
      (∃ text, (outcome path raw).verdict = .replace text ∧
        emitted path raw = some (text ++ (setAside raw).2) ∧
          (text ++ (setAside raw).2).Sublist raw ∧
          occurrences token (text ++ (setAside raw).2) < occurrences token raw) ∨
        (outcome path raw).verdict ≠ .keep ∧ emitted path raw = none := by
  cases verdict : (outcome path raw).verdict with
  | keep => exact .inl ⟨rfl, by rw [emitted, verdict]⟩
  | replace text => exact .inr (.inl ⟨text, rfl, emitted_of_replace verdict⟩)
  | removeLine => exact .inr (.inr ⟨by simp, by rw [emitted, verdict]⟩)
  | removeFile => exact .inr (.inr ⟨by simp, by rw [emitted, verdict]⟩)

/-- What a line leaves is a part of it. -/
theorem emitted_sublist {line : Text} (leaves : emitted path raw = some line) :
    line.Sublist raw := by
  rcases emitted_cases path raw with ⟨-, emits⟩ | ⟨text, -, emits, part, -⟩ | ⟨-, gone⟩
  · exact Option.some.inj (emits.symm.trans leaves) ▸ List.Sublist.refl raw
  · exact Option.some.inj (emits.symm.trans leaves) ▸ part
  · exact absurd (gone.symm.trans leaves) (by simp)

/-- The lines that are left as they are, are the lines that are kept. -/
theorem emitted_eq_some_self_iff :
    emitted path raw = some raw ↔ (outcome path raw).verdict = .keep := by
  rcases emitted_cases path raw with ⟨keeps, emits⟩ | ⟨text, replaces, emits, -, fewer⟩ |
    ⟨changes, gone⟩
  · simp [keeps, emits]
  · simp only [replaces, emits, Option.some.injEq, reduceCtorEq, iff_false]
    intro same
    rw [same] at fewer
    exact Nat.lt_irrefl _ fewer
  · simp [changes, gone]

/-- A change of a line costs it a token. -/
theorem cost_le (path raw : Text) :
    (if emitted path raw = some raw then 0 else 1) +
        ((emitted path raw).toList.map (occurrences token)).sum ≤ occurrences token raw := by
  rcases emitted_cases path raw with ⟨-, emits⟩ | ⟨text, -, emits, -, fewer⟩ | ⟨changes, gone⟩
  · simp [emits]
  · rw [emits]
    split <;> simp <;> omega
  · have price : 1 ≤ occurrences token raw :=
      Text.occurrences_pos_iff.2 (isInfix_of_ne_keep changes)
    simpa [gone] using price

/-! ## Changes of a text -/

/-- What the lines of a text leave. -/
def remains (path content : Text) : Text :=
  Text.joinWith '\n' ((Text.splitOn '\n' content).filterMap (emitted path))

theorem remains_sublist (path content : Text) : (remains path content).Sublist content := by
  have part : (remains path content).Sublist (Text.joinWith '\n' (Text.splitOn '\n' content)) :=
    Text.joinWith_filterMap_sublist fun raw _ line leaves => emitted_sublist leaves
  rwa [Text.joinWith_splitOn] at part

/-- The lines that are left are lines. -/
theorem lineFeed_not_mem_left (path content : Text) :
    ∀ line ∈ (Text.splitOn '\n' content).filterMap (emitted path), '\n' ∉ line := by
  intro line mem lineFeed
  obtain ⟨raw, source, leaves⟩ := List.mem_filterMap.1 mem
  exact Text.not_mem_of_mem_splitOn source ((emitted_sublist leaves).subset lineFeed)

theorem changes_add_sum_le (path : Text) (lines : List Text) :
    changes path lines + ((lines.filterMap (emitted path)).map (occurrences token)).sum ≤
      (lines.map (occurrences token)).sum := by
  induction lines with
  | nil => simp [changes]
  | cons raw lines ih =>
      have first := cost_le path raw
      rw [changes_cons, left_cons, List.map_append, List.sum_append, List.map_cons, List.sum_cons]
      omega

/-- Each changed line of a text costs it a token. -/
theorem changes_add_occurrences_le (path content : Text) :
    changes path (Text.splitOn '\n' content) + occurrences token (remains path content) ≤
      occurrences token content := by
  have lineFeed : '\n' ∉ token := by decide
  have pieces := changes_add_sum_le path (Text.splitOn '\n' content)
  rwa [← Text.occurrences_joinWith token_ne_nil lineFeed,
    ← Text.occurrences_joinWith token_ne_nil lineFeed,
    Text.joinWith_splitOn] at pieces

theorem remains_eq_self_iff (path content : Text) :
    remains path content = content ↔ changes path (Text.splitOn '\n' content) = 0 := by
  constructor
  · intro same
    have costs := changes_add_occurrences_le path content
    rw [same] at costs
    omega
  · intro unchanged
    have left : ∀ raw ∈ Text.splitOn '\n' content, emitted path raw = some raw := by
      simpa [changes, List.countP_eq_zero] using unchanged
    rw [remains, List.filterMap_congr left, List.filterMap_some, Text.joinWith_splitOn]

/-- A text that stays is edited by what its lines leave. -/
theorem apply_of_stays {content : Text} (stays : (apply path content).edit ≠ .remove) :
    (∀ raw ∈ Text.splitOn '\n' content, ¬RemovesFile path raw) ∧
      apply path content =
        { edit := if remains path content = content then .unchanged
          else .revised (remains path content)
          changedLines := changes path (Text.splitOn '\n' content)
          warnings := warningsFrom path 1 (Text.splitOn '\n' content) } := by
  obtain ⟨application, reads⟩ := exists_reads path content
  have applied := reads.apply_eq
  cases reads with
  | removed _ _ _ => exact absurd (congrArg Application.edit applied) stays
  | @edited lines text areLines keeps joined =>
      obtain rfl := areLines_iff.1 areLines
      subst joined
      exact ⟨keeps, applied⟩

/-- A revised text is what the lines of the old one leave, and it is another text. -/
theorem eq_remains_of_revised {content : Text}
    (revised : (apply path content).edit = .revised text) :
    remains path content = text ∧ text ≠ content := by
  obtain ⟨-, applied⟩ := apply_of_stays (by rw [revised]; simp)
  rw [applied] at revised
  split at revised
  · cases revised
  · rename_i differs
    cases revised
    exact ⟨rfl, differs⟩

theorem changes_eq_countP (path : Text) (lines : List Text) :
    changes path lines = lines.countP fun raw => !(outcome path raw).isNoop := by
  refine List.countP_congr fun raw _ => ?_
  simp [Outcome.isNoop, emitted_eq_some_self_iff]

/-- The count of changed lines says how many lines do not stay, and the text stays exactly when
none of them changes. -/
theorem changedLines_exact (path content : Text) (stays : (apply path content).edit ≠ .remove) :
    (apply path content).changedLines =
        (Text.splitOn '\n' content).countP (fun raw => !(outcome path raw).isNoop) ∧
      (∀ raw ∈ Text.splitOn '\n' content, ∀ text,
        (outcome path raw).verdict = .replace text → text ≠ (setAside raw).1) ∧
        ((apply path content).edit = .unchanged ↔ (apply path content).changedLines = 0) := by
  obtain ⟨-, applied⟩ := apply_of_stays stays
  refine ⟨?_, fun raw _ text replaces same => ?_, ?_⟩
  · rw [applied, changes_eq_countP]
  · obtain ⟨emits, -, -⟩ := emitted_of_replace replaces
    rw [same, append_setAside, emitted_eq_some_self_iff, replaces] at emits
    cases emits
  · rw [applied]
    simp only [← remains_eq_self_iff]
    split <;> simp_all

/-- A line that is removed, one that is kept with a warning, and one that is replaced. -/
def mixedText : Text :=
  "a // <dler-remove-line>\nb // <dler-x>\nc // <dler-replace-line-to `d`>\r\n".toList

theorem changedLines_exact_mixed :
    (apply "dist-npm/a.js".toList mixedText).edit ≠ .remove ∧
      (apply "dist-npm/a.js".toList mixedText).changedLines = 2 ∧
        (apply "dist-npm/a.js".toList mixedText).edit ≠ .unchanged := by
  have stays : (apply "dist-npm/a.js".toList mixedText).edit ≠ .remove := by decide +kernel
  obtain ⟨counted, -, unchanged_iff⟩ := changedLines_exact _ _ stays
  have two : ((Text.splitOn '\n' mixedText).countP fun raw =>
      !(outcome "dist-npm/a.js".toList raw).isNoop) = 2 := by decide +kernel
  refine ⟨stays, counted.trans two, fun unchanged => ?_⟩
  rw [unchanged_iff, counted, two] at unchanged
  contradiction

end DistDirectives.Edit
