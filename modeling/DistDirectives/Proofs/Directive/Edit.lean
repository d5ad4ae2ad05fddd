import DistDirectives.Directive.Edit
import DistDirectives.Proofs.Directive.Printing

/-!
# Reading a text line by line

What becomes of a text is said once more without the pass over its lines: each line has an outcome
of its own, judged without one carriage return at its end, and leaves something in its place or
nothing. The first line that removes the file decides everything, and what stands behind it does
not count. If there is none, the new text joins what the lines leave.

A text that mentions no token is not passed over at all. All its lines are left as they are, so
this makes no difference (`apply_eq_iff_reads`).
-/

namespace DistDirectives.Edit

/-! ## Lines of a text -/

/-- The pieces of a text between its line feeds. -/
structure AreLines (content : Text) (lines : List Text) : Prop where
  nonempty : lines ≠ []
  no_lineFeed : ∀ raw ∈ lines, '\n' ∉ raw
  joined : Text.joinWith '\n' lines = content

variable {content : Text} {lines : List Text}

theorem areLines_iff : AreLines content lines ↔ Text.splitOn '\n' content = lines := by
  constructor
  · intro areLines
    rw [← areLines.joined, Text.splitOn_joinWith areLines.nonempty areLines.no_lineFeed]
  · rintro rfl
    exact ⟨Text.splitOn_ne_nil '\n' content, fun _ => Text.not_mem_of_mem_splitOn,
      Text.joinWith_splitOn '\n' content⟩

/-- A line is what is judged, with one carriage return behind it or with nothing. -/
theorem setAside_eq_iff {raw line carriage : Text} :
    setAside raw = (line, carriage) ↔
      raw = line ++ carriage ∧
        (carriage = ['\r'] ∨ carriage = [] ∧ line.getLast? ≠ some '\r') := by
  rw [setAside]
  cases before : Text.before? ['\r'] raw with
  | some front =>
      have raw_eq := Text.before?_eq_some_iff.1 before
      simp only [Prod.mk.injEq]
      constructor
      · rintro ⟨rfl, rfl⟩
        exact ⟨raw_eq, .inl rfl⟩
      · rintro ⟨split, rfl | ⟨rfl, ends⟩⟩
        · exact ⟨List.append_cancel_right (raw_eq.symm.trans split), rfl⟩
        · rw [List.append_nil] at split
          exact absurd (by rw [← split, raw_eq, List.getLast?_concat]) ends
  | none =>
      have differs : ∀ front, raw ≠ front ++ ['\r'] := by
        intro front split
        rw [Text.before?_eq_some_iff.2 split] at before
        cases before
      simp only [Prod.mk.injEq]
      constructor
      · rintro ⟨rfl, rfl⟩
        refine ⟨(List.append_nil raw).symm, .inr ⟨rfl, fun ends => ?_⟩⟩
        obtain ⟨front, split⟩ := List.getLast?_eq_some_iff.1 ends
        exact differs front split
      · rintro ⟨split, rfl | ⟨rfl, -⟩⟩
        · exact absurd split (differs line)
        · exact ⟨split.trans (List.append_nil line), rfl⟩

@[simp]
theorem append_setAside (raw : Text) : (setAside raw).1 ++ (setAside raw).2 = raw :=
  (setAside_eq_iff.1 (Prod.eta (setAside raw)).symm).1.symm

/-! ## What a line leaves -/

variable (path : Text)

/-- The outcome of a line, judged without a carriage return at its end. -/
def outcome (raw : Text) : Outcome := Directive.evaluate path (setAside raw).1

/-- A line that removes the file. -/
def RemovesFile (raw : Text) : Prop := (outcome path raw).verdict = .removeFile

instance (raw : Text) : Decidable (RemovesFile path raw) :=
  inferInstanceAs (Decidable ((outcome path raw).verdict = .removeFile))

/-- What stands in the place of a line in the new text, if anything does. -/
def emitted (raw : Text) : Option Text :=
  match (outcome path raw).verdict with
  | .keep => some raw
  | .replace replacement => some (replacement ++ (setAside raw).2)
  | .removeLine | .removeFile => none

/-- The number of lines that do not stand in the new text as they are. -/
def changes (lines : List Text) : Nat := lines.countP fun raw => emitted path raw ≠ some raw

/-- The warning about a line, under its number. -/
def warningAt (number : Nat) (raw : Text) : Option LineWarning :=
  (outcome path raw).warning.map (⟨number, ·⟩)

/-- The warnings about lines that are numbered from a given number on. -/
def warningsFrom (number : Nat) (lines : List Text) : List LineWarning :=
  (lines.zipIdx number).filterMap fun line => warningAt path line.2 line.1

/-- What becomes of a text, read off its lines. -/
inductive Reads (path content : Text) : Application → Prop
  /-- The first line that removes the file ends the edit. -/
  | removed {front back : List Text} {raw : Text} :
      AreLines content (front ++ raw :: back) →
        (∀ earlier ∈ front, ¬RemovesFile path earlier) → RemovesFile path raw →
          Reads path content
            { edit := .remove, changedLines := 0, warnings := warningsFrom path 1 front }
  /-- The new text joins what all lines leave. -/
  | edited {lines : List Text} {text : Text} :
      AreLines content lines → (∀ raw ∈ lines, ¬RemovesFile path raw) →
        text = Text.joinWith '\n' (lines.filterMap (emitted path)) →
          Reads path content
            { edit := if text = content then .unchanged else .revised text
              changedLines := changes path lines
              warnings := warningsFrom path 1 lines }

variable {path} {raw : Text} {number : Nat} {front : List Text}

/-! ## Outcomes that decide -/

theorem chosen_ne_removeFile (holds : Bool) (replacement : Text) (alternative : Option Text) :
    Outcome.chosen holds replacement alternative ≠ .removeFile := by
  cases holds <;> cases alternative <;> simp [Outcome.chosen]

/-- Only the directive that says so removes the file. -/
theorem removesFile_iff :
    RemovesFile path raw ↔ Directive.read (setAside raw).1 = .directive .removeFile := by
  rw [RemovesFile, outcome, Directive.evaluate]
  cases Directive.read (setAside raw).1 with
  | nothing => simp [Outcome.ofReading]
  | unknown name => simp [Outcome.ofReading]
  | malformed name body => simp [Outcome.ofReading]
  | directive directive =>
      simp only [Outcome.ofReading, Reading.directive.injEq]
      cases directive with
      | removeFile => simp [Outcome.ofDirective]
      | removeLine => simp [Outcome.ofDirective]
      | removeComment =>
          simp only [Outcome.ofDirective]
          split <;> simp
      | replaceLine replacement condition alternative =>
          cases condition with
          | none => simp [Outcome.ofDirective, chosen_ne_removeFile]
          | some text =>
              simp only [Outcome.ofDirective]
              cases Condition.read? text <;> simp [chosen_ne_removeFile]

/-- A line that removes the file gives no warning. -/
theorem RemovesFile.warning (removes : RemovesFile path raw) :
    (outcome path raw).warning = none := by
  rw [outcome, Directive.evaluate, removesFile_iff.1 removes]
  rfl

/-- A line without the token is left as it is. -/
theorem outcome_of_not_mentioned (absent : ¬Directive.token <:+: raw) : outcome path raw = {} := by
  have nothing : Directive.read (setAside raw).1 = .nothing := by
    by_contra reads
    obtain ⟨o, first, -⟩ := Directive.exists_isFirst_of_read rfl reads
    apply absent
    rw [← append_setAside raw, first.isIn.line_eq]
    refine ⟨o.before ++ Directive.commentMarker ++ (o.blanks ++ o.remark),
      o.behindToken ++ (setAside raw).2, ?_⟩
    simp only [Directive.Occurrence.line, Directive.Occurrence.fromMarker, List.append_assoc]
  rw [outcome, Directive.evaluate, nothing]
  rfl

/-! ## The pass over the lines -/

theorem changes_cons (raw : Text) (rest : List Text) :
    changes path (raw :: rest) = (if emitted path raw = some raw then 0 else 1) +
      changes path rest := by
  by_cases same : emitted path raw = some raw <;> simp [changes, same, Nat.add_comm]

theorem left_cons (raw : Text) (rest : List Text) :
    (raw :: rest).filterMap (emitted path) =
      (emitted path raw).toList ++ rest.filterMap (emitted path) := by
  rw [List.filterMap_cons]
  cases emitted path raw <;> rfl

theorem warningsFrom_cons (raw : Text) (rest : List Text) :
    warningsFrom path number (raw :: rest) =
      (warningAt path number raw).toList ++ warningsFrom path (number + 1) rest := by
  rw [warningsFrom, List.zipIdx_cons, List.filterMap_cons]
  cases warningAt path number raw <;> rfl

theorem pass_cons (raw : Text) (rest : List Text) :
    pass path number (raw :: rest) =
      (Progress.after raw (setAside raw).1 (setAside raw).2 (outcome path raw)
        (pass path (number + 1) rest)).warn number (outcome path raw) := rfl

/-- A line that removes the file ends the pass. -/
theorem pass_cons_of_removes (removes : RemovesFile path raw) (rest : List Text) :
    pass path number (raw :: rest) = { removesFile := true } := by
  have verdict : (outcome path raw).verdict = .removeFile := removes
  simp only [pass_cons, Progress.after, Progress.warn, verdict, removes.warning]

theorem warn_eq (progress : Progress) :
    progress.warn number (outcome path raw) =
      { progress with warnings := (warningAt path number raw).toList ++ progress.warnings } := by
  rw [Progress.warn, warningAt]
  cases (outcome path raw).warning <;> rfl

theorem after_eq (stays : ¬RemovesFile path raw) (later : Progress) :
    Progress.after raw (setAside raw).1 (setAside raw).2 (outcome path raw) later =
      { later with
        lines := (emitted path raw).toList ++ later.lines
        changed := (if emitted path raw = some raw then 0 else 1) + later.changed } := by
  rw [RemovesFile] at stays
  cases verdict : (outcome path raw).verdict with
  | removeFile => exact absurd verdict stays
  | keep => simp [Progress.after, emitted, verdict]
  | removeLine => simp [Progress.after, emitted, verdict, Nat.add_comm]
  | replace replacement =>
      -- both sides of the comparison go on with the same carriage return
      have same_iff : replacement ++ (setAside raw).2 = raw ↔ replacement = (setAside raw).1 := by
        nth_rewrite 2 [← append_setAside raw]
        exact List.append_left_inj _
      by_cases same : replacement = (setAside raw).1 <;>
        simp [Progress.after, emitted, verdict, same_iff, same, Nat.add_comm]

/-- What a line leaves is put before what the lines after it leave. -/
theorem pass_cons_of_stays (stays : ¬RemovesFile path raw) (rest : List Text) :
    pass path number (raw :: rest) =
      { removesFile := (pass path (number + 1) rest).removesFile
        lines := (emitted path raw).toList ++ (pass path (number + 1) rest).lines
        changed := (if emitted path raw = some raw then 0 else 1) +
          (pass path (number + 1) rest).changed
        warnings := (warningAt path number raw).toList ++
          (pass path (number + 1) rest).warnings } := by
  rw [pass_cons, after_eq stays, warn_eq]

/-- Lines that do not remove the file are passed one by one. -/
theorem pass_append (number : Nat) (stays : ∀ raw ∈ front, ¬RemovesFile path raw)
    (back : List Text) :
    pass path number (front ++ back) =
      { removesFile := (pass path (number + front.length) back).removesFile
        lines := front.filterMap (emitted path) ++ (pass path (number + front.length) back).lines
        changed := changes path front + (pass path (number + front.length) back).changed
        warnings := warningsFrom path number front ++
          (pass path (number + front.length) back).warnings } := by
  induction front generalizing number with
  | nil => simp [changes, warningsFrom]
  | cons raw front ih =>
      have first := stays raw (by simp)
      have later := ih (number + 1) fun other mem => stays other (by simp [mem])
      have last : number + 1 + front.length = number + (raw :: front).length := by
        rw [List.length_cons]
        omega
      rw [List.cons_append, pass_cons_of_stays first, later, last, changes_cons,
        warningsFrom_cons, left_cons,
        List.append_assoc, List.append_assoc, Nat.add_assoc]

/-- Lines that mention no token are left as they are. -/
theorem left_of_not_mentioned (path : Text) (number : Nat)
    (absent : ∀ raw ∈ lines, ¬Directive.token <:+: raw) :
    (∀ raw ∈ lines, ¬RemovesFile path raw) ∧ lines.filterMap (emitted path) = lines ∧
      changes path lines = 0 ∧ warningsFrom path number lines = [] := by
  have left {raw : Text} (mem : raw ∈ lines) : outcome path raw = {} :=
    outcome_of_not_mentioned (absent raw mem)
  have emits : ∀ raw ∈ lines, emitted path raw = some raw := by
    intro raw mem
    rw [emitted, left mem]
  refine ⟨fun raw mem removes => ?_, ?_, ?_, ?_⟩
  · rw [RemovesFile, left mem] at removes
    cases removes
  · rw [List.filterMap_congr emits, List.filterMap_some]
  · rw [changes, List.countP_eq_zero]
    intro raw mem
    simp [emits raw mem]
  · rw [warningsFrom, List.filterMap_eq_nil_iff]
    intro line mem
    rw [warningAt, left (List.fst_mem_of_mem_zipIdx mem)]
    rfl

/-! ## The edit of a text -/

theorem AreLines.not_mentioned (areLines : AreLines content lines)
    (absent : ¬Directive.mentioned content = true) : ∀ raw ∈ lines, ¬Directive.token <:+: raw := by
  intro raw mem occurs
  rw [Directive.mentioned_iff, ← areLines.joined] at absent
  exact absent (occurs.trans (Text.isInfix_joinWith mem))

/-- What is read off the lines is what the edit computes. -/
theorem Reads.apply_eq {application : Application} (reads : Reads path content application) :
    apply path content = application := by
  cases reads with
  | @removed front back raw areLines stays removes =>
      have mentioned : Directive.mentioned content = true := by
        by_contra absent
        have kept := left_of_not_mentioned path 1 (areLines.not_mentioned absent)
        exact kept.1 raw (by simp) removes
      rw [apply, if_pos mentioned, areLines_iff.1 areLines, pass_append 1 stays,
        pass_cons_of_removes removes]
      simp
  | @edited lines text areLines stays joined =>
      by_cases mentioned : Directive.mentioned content = true
      · have passed := pass_append 1 stays []
        rw [List.append_nil] at passed
        rw [apply, if_pos mentioned, areLines_iff.1 areLines, passed]
        simp [pass, joined]
      · obtain ⟨-, emits, unchanged, silent⟩ :=
          left_of_not_mentioned path 1 (areLines.not_mentioned mentioned)
        rw [emits, areLines.joined] at joined
        rw [apply, if_neg mentioned, if_pos joined, unchanged, silent]

/-- Every text can be read off its lines. -/
theorem exists_reads (path content : Text) : ∃ application, Reads path content application := by
  have areLines := areLines_iff.2 (rfl : Text.splitOn '\n' content = _)
  cases first : (Text.splitOn '\n' content).find? (RemovesFile path ·) with
  | none =>
      rw [List.find?_eq_none] at first
      exact ⟨_, .edited areLines (by simpa using first) rfl⟩
  | some raw =>
      obtain ⟨removes, front, back, split, stays⟩ := List.find?_eq_some_iff_append.1 first
      exact ⟨_, .removed (split ▸ areLines) (by simpa using stays) (by simpa using removes)⟩

/-- What becomes of a text is what is read off its lines, whether or not it mentions a token. -/
theorem apply_eq_iff_reads (path content : Text) (application : Application) :
    apply path content = application ↔ Reads path content application := by
  constructor
  · rintro rfl
    obtain ⟨application, reads⟩ := exists_reads path content
    exact reads.apply_eq ▸ reads
  · exact Reads.apply_eq

example :
    apply "dist-npm/a.js".toList "a\r\n// <dler-x>\r\nb // <dler-remove-line>\r\n".toList =
      { edit := .revised "a\r\n// <dler-x>\r\n".toList
        changedLines := 1
        warnings := [⟨2, .unknownDirective ['x']⟩] } := by decide +kernel

end DistDirectives.Edit
