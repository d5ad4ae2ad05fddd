import Mathlib.Data.List.TakeWhile
import DistDirectives.Text.Blank

/-!
# Runs of characters, blanks and words

A run of a class of characters is taken as far as it goes, so it is fixed by what it
consists of and by where it stops (`dropWhile_eq_iff`). Trimming and passing over blanks
are read off from that. A word is a text without blanks that is not empty; words are
never trimmed, and blanks never reach into them.
-/

namespace DistDirectives.Text

/-! ## Runs -/

/-- A text whose characters all belong to a class. -/
def AllOf (p : Char → Bool) (text : Text) : Prop := ∀ c ∈ text, p c = true

/-- A text that does not begin with a character of a class. -/
def Stops (p : Char → Bool) (text : Text) : Prop := ∀ c ∈ text.head?, p c = false

variable {p : Char → Bool} {front back text : Text}

instance : Decidable (AllOf p text) := decidable_of_iff (text.all p = true) List.all_eq_true

theorem AllOf.append (all : AllOf p front) (others : AllOf p back) : AllOf p (front ++ back) :=
  fun c mem => (List.mem_append.1 mem).elim (all c) (others c)

/-- A text without one character. -/
theorem allOf_ne_iff {mark : Char} : AllOf (fun c => decide (c ≠ mark)) text ↔ mark ∉ text := by
  simp only [AllOf, decide_eq_true_eq]
  exact ⟨fun free mem => free mark mem rfl, fun absent c mem same => absent (same ▸ mem)⟩

@[simp]
theorem stops_cons {c : Char} : Stops p (c :: text) ↔ p c = false := by
  simp [Stops]

theorem allOf_takeWhile (p : Char → Bool) (text : Text) : AllOf p (text.takeWhile p) :=
  fun _ mem => List.mem_takeWhile_imp mem

theorem stops_dropWhile (p : Char → Bool) (text : Text) : Stops p (text.dropWhile p) := by
  intro c first
  have stopped := List.head?_dropWhile_not p text
  rw [Option.mem_def.1 first] at stopped
  simpa using stopped

theorem takeWhile_append_of_stops (all : AllOf p front) (stops : Stops p back) :
    (front ++ back).takeWhile p = front := by
  rw [List.takeWhile_append_of_pos all]
  cases back with
  | nil => simp
  | cons c back => simp [stops_cons.1 stops]

theorem dropWhile_append_of_stops (all : AllOf p front) (stops : Stops p back) :
    (front ++ back).dropWhile p = back := by
  rw [List.dropWhile_append_of_pos all]
  cases back with
  | nil => rfl
  | cons c back => simp [stops_cons.1 stops]

/-- What is left behind a run is fixed by the run and by where it stops. -/
theorem dropWhile_eq_iff :
    text.dropWhile p = back ↔ ∃ front, text = front ++ back ∧ AllOf p front ∧ Stops p back := by
  constructor
  · rintro rfl
    exact ⟨text.takeWhile p, List.takeWhile_append_dropWhile.symm, allOf_takeWhile p text,
      stops_dropWhile p text⟩
  · rintro ⟨front, rfl, all, stops⟩
    exact dropWhile_append_of_stops all stops

/-- What is left in front of a run at the end is fixed by the run and by where it stops. -/
theorem dropEndWhile_eq_iff :
    dropEndWhile p text = front ↔
      ∃ back, text = front ++ back ∧ AllOf p back ∧ Stops p front.reverse := by
  rw [dropEndWhile, List.reverse_eq_iff, dropWhile_eq_iff]
  constructor
  · rintro ⟨back, turned, all, stops⟩
    refine ⟨back.reverse, ?_, fun c mem => all c (List.mem_reverse.1 mem), stops⟩
    simpa using congrArg List.reverse turned
  · rintro ⟨back, rfl, all, stops⟩
    exact ⟨back.reverse, by simp, fun c mem => all c (List.mem_reverse.1 mem), stops⟩

/-! ## Blanks -/

/-- A text that consists of blanks. -/
def IsBlanks (text : Text) : Prop := AllOf isBlank text

/-- A run of blanks that separates what stands around it. -/
structure IsGap (gap : Text) : Prop where
  ne_nil : gap ≠ []
  blanks : IsBlanks gap

/-- A text without blanks that is not empty. -/
structure IsWord (word : Text) : Prop where
  ne_nil : word ≠ []
  solid : ∀ c ∈ word, isBlank c = false

instance : Decidable (IsBlanks text) := inferInstanceAs (Decidable (AllOf isBlank text))

theorem isGap_iff : IsGap text ↔ text ≠ [] ∧ IsBlanks text := by
  constructor
  · rintro ⟨nonempty, blanks⟩
    exact ⟨nonempty, blanks⟩
  · rintro ⟨nonempty, blanks⟩
    exact ⟨nonempty, blanks⟩

theorem isWord_iff : IsWord text ↔ text ≠ [] ∧ AllOf (fun c => !isBlank c) text := by
  simp only [AllOf, Bool.not_eq_true']
  constructor
  · rintro ⟨nonempty, solid⟩
    exact ⟨nonempty, solid⟩
  · rintro ⟨nonempty, solid⟩
    exact ⟨nonempty, solid⟩

instance : Decidable (IsGap text) := decidable_of_iff _ isGap_iff.symm

instance : Decidable (IsWord text) := decidable_of_iff _ isWord_iff.symm

theorem isBlanks_nil : IsBlanks [] := by
  decide

theorem IsBlanks.append (blanks : IsBlanks front) (others : IsBlanks back) :
    IsBlanks (front ++ back) :=
  AllOf.append blanks others

theorem IsGap.append (gap : IsGap front) (blanks : IsBlanks back) : IsGap (front ++ back) :=
  ⟨by simp [gap.ne_nil], gap.blanks.append blanks⟩

theorem IsGap.after (gap : IsGap back) (blanks : IsBlanks front) : IsGap (front ++ back) :=
  ⟨by simp [gap.ne_nil], blanks.append gap.blanks⟩

theorem isGap_space : IsGap [' '] := by
  decide

theorem IsWord.stops (word : IsWord front) (back : Text) : Stops isBlank (front ++ back) := by
  cases front with
  | nil => exact absurd rfl word.ne_nil
  | cons c front => exact stops_cons.2 (word.solid c (by simp))

theorem IsWord.stops_reverse (word : IsWord back) (front : Text) :
    Stops isBlank (front ++ back).reverse := by
  have turned : IsWord back.reverse :=
    ⟨by simp [word.ne_nil], fun c mem => word.solid c (List.mem_reverse.1 mem)⟩
  rw [List.reverse_append]
  exact turned.stops _

/-- Blanks are passed over when there is one and all of them are. -/
theorem afterBlanks?_eq_some_iff :
    afterBlanks? text = some back ↔ ∃ gap, text = gap ++ back ∧ IsGap gap ∧ Stops isBlank back := by
  constructor
  · intro passed
    cases text with
    | nil => contradiction
    | cons c rest =>
        simp only [afterBlanks?] at passed
        split at passed
        · rename_i blank
          obtain ⟨front, rfl, all, stops⟩ := dropWhile_eq_iff.1 (Option.some.inj passed)
          refine ⟨c :: front, rfl, ⟨by simp, ?_⟩, stops⟩
          simpa [IsBlanks, AllOf, blank] using all
        · contradiction
  · rintro ⟨gap, rfl, isGap, stops⟩
    cases gap with
    | nil => exact absurd rfl isGap.ne_nil
    | cons c gap =>
        have blank : isBlank c = true := isGap.blanks c (by simp)
        have others : AllOf isBlank gap := fun d mem => isGap.blanks d (by simp [mem])
        simp [afterBlanks?, blank, trimStart, dropWhile_append_of_stops others stops]

theorem afterBlanks?_eq_none_of_stops (stops : Stops isBlank text) : afterBlanks? text = none := by
  cases text with
  | nil => rfl
  | cons c rest => simp [afterBlanks?, stops_cons.1 stops]

/-! ## Trimming -/

/-- Trimming takes blanks from both ends. -/
theorem exists_blanks_around_trim (text : Text) :
    ∃ lead trail, text = lead ++ trim text ++ trail ∧ IsBlanks lead ∧ IsBlanks trail := by
  obtain ⟨lead, split, blanks, -⟩ := dropWhile_eq_iff.1 (rfl : trimStart text = _)
  obtain ⟨trail, splitEnd, others, -⟩ := dropEndWhile_eq_iff.1 (rfl : trim text = _)
  refine ⟨lead, trail, ?_, blanks, others⟩
  calc text = lead ++ trimStart text := split
    _ = lead ++ (trim text ++ trail) := congrArg (lead ++ ·) splitEnd
    _ = lead ++ trim text ++ trail := (List.append_assoc _ _ _).symm

theorem IsWord.trim_eq (word : IsWord text) : trim text = text := by
  have start : trimStart text = text :=
    dropWhile_eq_iff.2 ⟨[], rfl, isBlanks_nil, by simpa using word.stops []⟩
  have finish : trimEnd text = text :=
    dropEndWhile_eq_iff.2 ⟨[], by simp, isBlanks_nil, by simpa using word.stops_reverse []⟩
  rw [trim, start, finish]

end DistDirectives.Text
