import Mathlib.Data.List.Basic
import DistDirectives.Text

/-!
# Joined texts

A joined text begins with its first piece and ends with what its other pieces are joined to. So
pieces that are dropped or cut down leave a part of the joined text, in its order
(`joinWith_filterMap_sublist`). The joined text ends with a separator exactly when the last
piece is empty and not the only one (`getLast?_joinWith_eq_iff`).
-/

namespace DistDirectives.Text

variable {separator : Char} {pieces : List Text}

theorem joinWith_append {front back : List Text} (frontNonempty : front ≠ [])
    (backNonempty : back ≠ []) :
    joinWith separator (front ++ back) =
      joinWith separator front ++ separator :: joinWith separator back := by
  induction front with
  | nil => exact absurd rfl frontNonempty
  | cons piece rest ih =>
      cases rest with
      | nil => rw [List.singleton_append, joinWith_cons _ _ backNonempty, joinWith]
      | cons next rest =>
          have inner := ih (by simp)
          rw [List.cons_append] at inner
          simp only [List.cons_append, joinWith_cons_cons, inner, List.append_assoc]

theorem isPrefix_joinWith (separator : Char) (piece : Text) (pieces : List Text) :
    piece <+: joinWith separator (piece :: pieces) := by
  cases pieces with
  | nil => exact List.prefix_rfl
  | cons next pieces => exact List.prefix_append piece _

theorem isSuffix_joinWith (separator : Char) (piece : Text) (pieces : List Text) :
    joinWith separator pieces <:+ joinWith separator (piece :: pieces) := by
  cases pieces with
  | nil => exact List.nil_suffix
  | cons next pieces => exact (List.suffix_cons separator _).trans (List.suffix_append piece _)

/-- Parts of some of the pieces, joined, are a part of the joined pieces. -/
theorem joinWith_filterMap_sublist {part : Text → Option Text}
    (smaller : ∀ piece ∈ pieces, ∀ text ∈ part piece, text.Sublist piece) :
    (joinWith separator (pieces.filterMap part)).Sublist (joinWith separator pieces) := by
  induction pieces with
  | nil => exact List.Sublist.refl _
  | cons piece pieces ih =>
      have later := ih fun other mem => smaller other (by simp [mem])
      cases taken : part piece with
      | none =>
          rw [List.filterMap_cons_none taken]
          exact later.trans (isSuffix_joinWith separator piece pieces).sublist
      | some text =>
          have first : text.Sublist piece := smaller piece (by simp) text taken
          rw [List.filterMap_cons_some taken]
          by_cases last : pieces.filterMap part = []
          · rw [last]
            exact first.trans (isPrefix_joinWith separator piece pieces).sublist
          · have others : pieces ≠ [] := by
              rintro rfl
              exact last rfl
            rw [joinWith_cons separator text last, joinWith_cons separator piece others]
            exact first.append (later.cons_cons separator)

/-- A separator stands at the end when the last piece is empty and another one stands in front. -/
theorem getLast?_joinWith_eq_iff (absent : ∀ piece ∈ pieces, separator ∉ piece) :
    (joinWith separator pieces).getLast? = some separator ↔
      pieces.getLast? = some [] ∧ 1 < pieces.length := by
  rcases List.eq_nil_or_concat' pieces with rfl | ⟨front, last, rfl⟩
  · simp [joinWith]
  · have inside : last.getLast? ≠ some separator := fun ends =>
      absent last (by simp) (List.mem_of_getLast? ends)
    cases front with
    | nil => simpa [joinWith] using inside
    | cons piece front =>
        rw [joinWith_append (List.cons_ne_nil _ _) (List.cons_ne_nil _ _),
          List.getLast?_append_cons,
          List.getLast?_concat]
        cases last with
        | nil => simp [joinWith]
        | cons c last => simpa [joinWith] using inside

end DistDirectives.Text
