import Mathlib.Algebra.GroupWithZero.Nat
import Mathlib.Data.List.Infix
import DistDirectives.Text

/-!
# Counting occurrences

The number of places at which a needle begins in a text. Counting the two parts of a text
can only miss places (`add_le_occurrences_append`), and it misses none when a separator that
is not in the needle stands between them. So a joined text is counted piece by piece
(`occurrences_joinWith`).
-/

namespace DistDirectives.Text

/-- The number of places at which a needle begins. -/
def occurrences (needle text : Text) : Nat := text.tails.countP (needle.isPrefixOf ·)

variable {needle text : Text}

theorem occurrences_pos_iff : 0 < occurrences needle text ↔ needle <:+: text := by
  simp only [occurrences, List.countP_pos_iff, List.mem_tails, List.isPrefixOf_iff_prefix,
    List.infix_iff_prefix_suffix]
  exact exists_congr fun _ => and_comm

theorem occurrences_cons (needle : Text) (c : Char) (rest : Text) :
    occurrences needle (c :: rest) =
      occurrences needle rest + if needle <+: c :: rest then 1 else 0 := by
  simp [occurrences, List.countP_cons]

/-- A needle that begins in front of a character it does not hold ends there too. -/
theorem isPrefix_append_cons_iff {separator : Char} (absent : separator ∉ needle)
    (front back : Text) :
    needle <+: front ++ separator :: back ↔ needle <+: front := by
  constructor
  · rintro ⟨rest, split⟩
    rcases List.append_eq_append_iff.1 split with ⟨between, rfl, -⟩ | ⟨between, rfl, behind⟩
    · exact List.prefix_append needle between
    · cases between with
      | nil => simp
      | cons c between =>
          obtain ⟨rfl, -⟩ := List.cons.inj behind
          exact absurd (by simp) absent
  · intro begins
    exact begins.trans (List.prefix_append front _)

section

variable (nonempty : needle ≠ [])
include nonempty

theorem occurrences_nil : occurrences needle [] = 0 := by
  simpa [occurrences] using nonempty

theorem add_le_occurrences_append (front back : Text) :
    occurrences needle front + occurrences needle back ≤ occurrences needle (front ++ back) := by
  induction front with
  | nil => simp [occurrences_nil nonempty]
  | cons c front ih =>
      have longer : needle <+: c :: front → needle <+: c :: (front ++ back) := fun begins =>
        begins.trans (List.prefix_append (c :: front) back)
      rw [List.cons_append, occurrences_cons, occurrences_cons]
      by_cases begins : needle <+: c :: front
      · simp only [begins, longer begins, if_true]
        omega
      · simp only [begins, if_false]
        omega

theorem occurrences_append_cons {separator : Char} (absent : separator ∉ needle)
    (front back : Text) :
    occurrences needle (front ++ separator :: back) =
      occurrences needle front + occurrences needle back := by
  induction front with
  | nil =>
      have starts : ¬needle <+: separator :: back := by
        rw [← List.nil_append (separator :: back), isPrefix_append_cons_iff absent, List.prefix_nil]
        exact nonempty
      simp [occurrences_cons, occurrences_nil nonempty, starts]
  | cons c front ih =>
      have same := isPrefix_append_cons_iff absent (c :: front) back
      rw [List.cons_append] at same ⊢
      simp only [occurrences_cons, same, ih]
      omega

/-- The places in a joined text are those in its pieces. -/
theorem occurrences_joinWith {separator : Char} (absent : separator ∉ needle) (pieces : List Text) :
    occurrences needle (joinWith separator pieces) = (pieces.map (occurrences needle)).sum := by
  induction pieces with
  | nil => exact occurrences_nil nonempty
  | cons piece pieces ih =>
      cases pieces with
      | nil => simp [joinWith]
      | cons next pieces =>
          rw [joinWith_cons_cons, occurrences_append_cons nonempty absent, ih]
          simp only [List.map_cons, List.sum_cons]

end

end DistDirectives.Text
