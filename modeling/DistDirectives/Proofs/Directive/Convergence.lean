import Mathlib.Data.List.Flatten
import Mathlib.Order.Monotone.Basic
import Mathlib.Order.WellFounded
import DistDirectives.Proofs.Directive.Remains
import DistDirectives.Proofs.Text.Utf8

/-!
# Editing a text again and again

What is put in place of a line may hold a directive of its own, which comes alive when the new
text is edited in its turn, perhaps for another file. This does not go on forever. A revised text
is a proper part of the old one and mentions fewer tokens (`lt_of_revised`), so whatever the
paths, there are never more revisions than the first text has tokens, and from some edit on there
are none (`revisions_converge`).
-/

namespace DistDirectives.Edit

open Directive (token)
open Text (occurrences)

variable {path content text : Text} {paths : Nat → Text}

/-! ## One revision -/

/-- A revised text is a proper part of the old one, and it mentions fewer tokens. -/
theorem lt_of_revised (revised : (apply path content).edit = .revised text) :
    text.length < content.length ∧ Utf8.size text < Utf8.size content ∧
      occurrences token text < occurrences token content := by
  obtain ⟨rfl, differs⟩ := eq_remains_of_revised revised
  have part := remains_sublist path content
  have bytes : (Utf8.encode (remains path content)).Sublist (Utf8.encode content) :=
    part.flatMap String.utf8EncodeChar
  refine ⟨?_, ?_, ?_⟩
  · exact part.length_le.lt_of_ne (mt part.eq_of_length differs)
  · exact bytes.length_le.lt_of_ne fun same =>
      differs (Utf8.encode_injective (bytes.eq_of_length same))
  · have costs := changes_add_occurrences_le path content
    have changed := mt (remains_eq_self_iff path content).2 differs
    omega

/-! ## A sequence of edits -/

/-- The edit gives a new text. -/
def Revises (path content : Text) : Prop := ∃ text, (apply path content).edit = .revised text

/-- The edit leaves the text as it is or removes it. -/
def Rests (path content : Text) : Prop :=
  (apply path content).edit = .unchanged ∨ (apply path content).edit = .remove

theorem not_rests_iff : ¬Rests path content ↔ Revises path content := by
  cases edit : (apply path content).edit <;> simp [Revises, Rests, edit]

instance (path content : Text) : Decidable (Rests path content) :=
  inferInstanceAs (Decidable (_ ∨ _))

instance (path content : Text) : Decidable (Revises path content) :=
  decidable_of_iff _ not_rests_iff

/-- The text to go on with: the new one, or the same again when there is none. -/
def onward (path content : Text) : Text :=
  match (apply path content).edit with
  | .revised text => text
  | .unchanged | .remove => content

/-- The text before the edit with a given number, when a text is edited for one path after the
other and each edit goes on with what the one before it gave. -/
def stage (paths : Nat → Text) (content : Text) : Nat → Text
  | 0 => content
  | n + 1 => onward (paths n) (stage paths content n)

/-- The number of revisions among the first edits. -/
def revisions (paths : Nat → Text) (content : Text) (n : Nat) : Nat :=
  (List.range n).countP fun k => Revises (paths k) (stage paths content k)

theorem onward_of_rests (rests : Rests path content) : onward path content = content := by
  rcases rests with unchanged | removed
  · rw [onward, unchanged]
  · rw [onward, removed]

/-- A revision uses up a token. -/
theorem occurrences_onward_lt (revises : Revises path content) :
    occurrences token (onward path content) < occurrences token content := by
  obtain ⟨text, revised⟩ := revises
  rw [onward, revised]
  exact (lt_of_revised revised).2.2

theorem revisions_succ (paths : Nat → Text) (content : Text) (n : Nat) :
    revisions paths content (n + 1) =
      revisions paths content n + if Revises (paths n) (stage paths content n) then 1 else 0 := by
  rw [revisions, List.range_succ, List.countP_append, ← revisions]
  by_cases revises : Revises (paths n) (stage paths content n) <;> simp [revises]

/-- The tokens of the first text pay for all revisions and for what is left. -/
theorem revisions_add_occurrences_le (paths : Nat → Text) (content : Text) (n : Nat) :
    revisions paths content n + occurrences token (stage paths content n) ≤
      occurrences token content := by
  induction n with
  | zero => simp [revisions, stage]
  | succ n ih =>
      rw [revisions_succ, stage]
      by_cases rests : Rests (paths n) (stage paths content n)
      · have stays : ¬Revises (paths n) (stage paths content n) :=
          fun revises => not_rests_iff.2 revises rests
        rw [if_neg stays, onward_of_rests rests]
        exact ih
      · have revises := not_rests_iff.1 rests
        have fewer := occurrences_onward_lt revises
        rw [if_pos revises]
        omega

theorem antitone_occurrences_stage (paths : Nat → Text) (content : Text) :
    Antitone fun n => occurrences token (stage paths content n) := by
  apply antitone_nat_of_succ_le
  intro n
  by_cases rests : Rests (paths n) (stage paths content n)
  · rw [stage, onward_of_rests rests]
  · exact (occurrences_onward_lt (not_rests_iff.1 rests)).le

theorem exists_fewest_occurrences (paths : Nat → Text) (content : Text) :
    ∃ n, ∀ m, occurrences token (stage paths content n) ≤
      occurrences token (stage paths content m) :=
  ⟨_, fun m => Function.argmin_le (fun n => occurrences token (stage paths content n)) m⟩

theorem monotone_revisions (paths : Nat → Text) (content : Text) :
    Monotone (revisions paths content) := by
  apply monotone_nat_of_le_succ
  intro n
  rw [revisions_succ]
  exact Nat.le_add_right _ _

/-- A revised text is shorter and mentions fewer tokens. So whatever the paths, a text is revised
at most as often as it mentions a token, and after that every edit leaves the text as it is or
removes it; in any case this holds from some edit on. -/
theorem revisions_converge (content : Text) :
    (∀ path text, (apply path content).edit = .revised text →
      text.length < content.length ∧ Utf8.size text < Utf8.size content ∧
        occurrences token text < occurrences token content) ∧
      ∀ paths : Nat → Text,
        (∀ n, revisions paths content n ≤ occurrences token content) ∧
          (∀ n, revisions paths content n = occurrences token content →
            ∀ m, n ≤ m → Rests (paths m) (stage paths content m)) ∧
            ∃ n, ∀ m, n ≤ m → Rests (paths m) (stage paths content m) := by
  refine ⟨fun path text revised => lt_of_revised revised, fun paths => ⟨fun n => ?_, ?_, ?_⟩⟩
  · have paid := revisions_add_occurrences_le paths content n
    omega
  · intro n used m later
    by_contra rests
    have paid := revisions_add_occurrences_le paths content (m + 1)
    have more := monotone_revisions paths content later
    rw [revisions_succ, if_pos (not_rests_iff.1 rests)] at paid
    omega
  · obtain ⟨n, fewest⟩ := exists_fewest_occurrences paths content
    refine ⟨n, fun m later => ?_⟩
    by_contra rests
    have fewer : occurrences token (stage paths content (m + 1)) <
        occurrences token (stage paths content m) :=
      occurrences_onward_lt (not_rests_iff.1 rests)
    exact Nat.not_lt_of_le (fewest (m + 1))
      (fewer.trans_le (antitone_occurrences_stage paths content later))

/-- A replacement that holds a directive of its own. -/
def nestedText : Text := "a // <dler-replace-line-to `b // <dler-remove-line>`>\nc\n".toList

/-- Two edits use up both tokens. -/
theorem revisions_converge_nested :
    (apply "dist-npm/a.js".toList nestedText).edit =
      .revised "b // <dler-remove-line>\nc\n".toList ∧
      occurrences token "b // <dler-remove-line>\nc\n".toList < occurrences token nestedText ∧
        revisions (fun _ => "dist-npm/a.js".toList) nestedText 2 = occurrences token nestedText ∧
          ∀ m, 2 ≤ m →
            Rests "dist-npm/a.js".toList
              (stage (fun _ => "dist-npm/a.js".toList) nestedText m) := by
  have revised : (apply "dist-npm/a.js".toList nestedText).edit =
      .revised "b // <dler-remove-line>\nc\n".toList := by decide +kernel
  have used : revisions (fun _ => "dist-npm/a.js".toList) nestedText 2 =
      occurrences token nestedText := by
    decide +kernel
  obtain ⟨shorter, bounded⟩ := revisions_converge nestedText
  obtain ⟨-, rests, -⟩ := bounded fun _ => "dist-npm/a.js".toList
  exact ⟨revised, (shorter _ _ revised).2.2, used, rests 2 used⟩

end DistDirectives.Edit
