/-!
# Texts

A text is a list of characters. This module holds the operations that every
other module reads texts with: cutting at a separator, joining again, removing a
given beginning, and looking for an occurrence. The laws beside them say that
cutting and joining undo each other, that a beginning is removed exactly when it
is there, and that an occurrence is a way of splitting the text.
-/

namespace DistDirectives

/-- A text is the list of its characters. -/
abbrev Text := List Char

/-- File contents are lists of bytes. -/
abbrev Bytes := List UInt8

namespace Text

/-- A text written as a string. -/
def toString (text : Text) : String := String.ofList text

/-- The pieces of a text between occurrences of a separator; there is always one
more piece than there are separators. -/
def splitOn (separator : Char) : Text → List Text
  | [] => [[]]
  | c :: rest =>
    if c = separator then
      [] :: splitOn separator rest
    else
      match splitOn separator rest with
      | [] => [[c]]
      | piece :: pieces => (c :: piece) :: pieces

/-- The pieces written one after the other with a separator between them. -/
def joinWith (separator : Char) : List Text → Text
  | [] => []
  | [piece] => piece
  | piece :: next :: pieces => piece ++ separator :: joinWith separator (next :: pieces)

/-- What follows a given beginning, if the sequence has that beginning. -/
def after? {α : Type} [DecidableEq α] : List α → List α → Option (List α)
  | [], text => some text
  | _ :: _, [] => none
  | a :: lead, b :: text => if a = b then after? lead text else none

/-- What precedes a given ending, if the text has that ending. -/
def before? (ending text : Text) : Option Text :=
  (after? ending.reverse text.reverse).map List.reverse

/-- A sequence occurs in another when the latter splits around it. -/
def occurs {α : Type} [DecidableEq α] (needle : List α) : List α → Bool
  | [] => needle.isEmpty
  | a :: rest => needle.isPrefixOf (a :: rest) || occurs needle rest

/-- The text without the characters of a class at its end. -/
def dropEndWhile (p : Char → Bool) (text : Text) : Text :=
  (text.reverse.dropWhile p).reverse

/-- The longest ending made of characters of a class. -/
def takeEndWhile (p : Char → Bool) (text : Text) : Text :=
  (text.reverse.takeWhile p).reverse

/-- ASCII letters in lower case, all other characters as they are. -/
def lowerAscii (text : Text) : Text := text.map Char.toLower

/-! ## Cutting and joining -/

theorem splitOn_ne_nil (separator : Char) (text : Text) : splitOn separator text ≠ [] := by
  cases text with
  | nil => simp [splitOn]
  | cons c rest =>
    simp only [splitOn]
    split
    · simp
    · split <;> simp

@[simp]
theorem joinWith_cons_cons (separator : Char) (piece next : Text) (pieces : List Text) :
    joinWith separator (piece :: next :: pieces) =
      piece ++ separator :: joinWith separator (next :: pieces) := rfl

theorem joinWith_cons (separator : Char) (piece : Text) {pieces : List Text}
    (nonempty : pieces ≠ []) :
    joinWith separator (piece :: pieces) = piece ++ separator :: joinWith separator pieces := by
  cases pieces with
  | nil => exact absurd rfl nonempty
  | cons next pieces => rfl

/-- Joining the pieces of a text gives the text back. -/
@[simp]
theorem joinWith_splitOn (separator : Char) (text : Text) :
    joinWith separator (splitOn separator text) = text := by
  induction text with
  | nil => rfl
  | cons c rest ih =>
    simp only [splitOn]
    split
    · rename_i same
      rw [joinWith_cons separator [] (splitOn_ne_nil separator rest), ih, same]
      rfl
    · split
      · rename_i none_left
        exact absurd none_left (splitOn_ne_nil separator rest)
      · rename_i piece pieces pieces_eq
        rw [pieces_eq] at ih
        cases pieces with
        | nil => simpa [joinWith] using ih
        | cons next pieces => simpa [joinWith] using ih

/-- No piece holds the separator. -/
theorem not_mem_of_mem_splitOn {separator : Char} {text piece : Text}
    (mem : piece ∈ splitOn separator text) : separator ∉ piece := by
  induction text generalizing piece with
  | nil => simp_all [splitOn]
  | cons c rest ih =>
    simp only [splitOn] at mem
    split at mem
    · rcases List.mem_cons.1 mem with rfl | mem
      · simp
      · exact ih mem
    · rename_i differs
      split at mem
      · rename_i none_left
        exact absurd none_left (splitOn_ne_nil separator rest)
      · rename_i first pieces pieces_eq
        rcases List.mem_cons.1 mem with rfl | mem
        · have inner : separator ∉ first := ih (by simp [pieces_eq])
          simp only [List.mem_cons, not_or]
          exact ⟨fun same => differs same.symm, inner⟩
        · exact ih (by simp [pieces_eq, mem])

theorem splitOn_eq_singleton {separator : Char} {text : Text} (absent : separator ∉ text) :
    splitOn separator text = [text] := by
  induction text with
  | nil => rfl
  | cons c rest ih =>
    simp only [List.mem_cons, not_or] at absent
    simp [splitOn, Ne.symm absent.1, ih absent.2]

/-- Cutting at a separator that follows a piece without it. -/
theorem splitOn_append_cons {separator : Char} {piece : Text} (absent : separator ∉ piece)
    (rest : Text) :
    splitOn separator (piece ++ separator :: rest) = piece :: splitOn separator rest := by
  induction piece with
  | nil => simp [splitOn]
  | cons c piece ih =>
    simp only [List.mem_cons, not_or] at absent
    simp [splitOn, Ne.symm absent.1, ih absent.2]

/-- Cutting what was joined from pieces without the separator gives the pieces
back, provided there is at least one. -/
theorem splitOn_joinWith {separator : Char} {pieces : List Text} (nonempty : pieces ≠ [])
    (absent : ∀ piece ∈ pieces, separator ∉ piece) :
    splitOn separator (joinWith separator pieces) = pieces := by
  induction pieces with
  | nil => exact absurd rfl nonempty
  | cons piece pieces ih =>
    cases pieces with
    | nil => exact splitOn_eq_singleton (absent piece (by simp))
    | cons next pieces =>
      rw [joinWith_cons_cons, splitOn_append_cons (absent piece (by simp)),
        ih (by simp) fun other mem => absent other (by simp [List.mem_cons.1 mem])]

/-- Cutting a text that holds a separator at a known place cuts both sides. -/
theorem splitOn_append_separator (separator : Char) (front back : Text) :
    splitOn separator (front ++ separator :: back) =
      splitOn separator front ++ splitOn separator back := by
  induction front with
  | nil => simp [splitOn]
  | cons c front ih =>
    by_cases same : c = separator
    · simp [splitOn, same, ih]
    · simp only [List.cons_append, splitOn, same, if_false, ih]
      cases pieces_eq : splitOn separator front with
      | nil => exact absurd pieces_eq (splitOn_ne_nil separator front)
      | cons piece pieces => simp

/-- Each piece stands in what is joined from the pieces. -/
theorem isInfix_joinWith {separator : Char} {piece : Text} {pieces : List Text}
    (mem : piece ∈ pieces) :
    piece <:+: joinWith separator pieces := by
  induction pieces with
  | nil => cases mem
  | cons first pieces ih =>
      cases pieces with
      | nil => exact List.mem_singleton.1 mem ▸ List.infix_rfl
      | cons next pieces =>
          rw [joinWith_cons_cons]
          have behind : joinWith separator (next :: pieces) <:+
              first ++ separator :: joinWith separator (next :: pieces) :=
            (List.suffix_cons separator _).trans (List.suffix_append first _)
          rcases List.mem_cons.1 mem with rfl | later
          · exact (List.prefix_append piece _).isInfix
          · exact (ih later).trans behind.isInfix

/-! ## Beginnings and endings -/

theorem after?_eq_some_iff {α : Type} [DecidableEq α] {lead text rest : List α} :
    after? lead text = some rest ↔ text = lead ++ rest := by
  induction lead generalizing text with
  | nil => simp [after?]
  | cons a lead ih =>
    cases text with
    | nil => simp [after?]
    | cons b text =>
      by_cases same : a = b
      · simp [after?, same, ih]
      · simp [after?, same, Ne.symm same]

@[simp]
theorem after?_append {α : Type} [DecidableEq α] (lead rest : List α) :
    after? lead (lead ++ rest) = some rest :=
  after?_eq_some_iff.2 rfl

theorem before?_eq_some_iff {ending text front : Text} :
    before? ending text = some front ↔ text = front ++ ending := by
  simp only [before?, Option.map_eq_some_iff, after?_eq_some_iff]
  constructor
  · rintro ⟨reversed, text_eq, rfl⟩
    have := congrArg List.reverse text_eq
    simpa using this
  · rintro rfl
    exact ⟨front.reverse, by simp, by simp⟩

/-! ## Occurrences -/

theorem occurs_iff {α : Type} [DecidableEq α] {needle haystack : List α} :
    occurs needle haystack = true ↔ ∃ front back, haystack = front ++ needle ++ back := by
  induction haystack with
  | nil =>
    simp only [occurs, List.isEmpty_iff]
    constructor
    · rintro rfl
      exact ⟨[], [], rfl⟩
    · rintro ⟨front, back, eq⟩
      simp only [List.nil_eq, List.append_eq_nil_iff] at eq
      exact eq.1.2
  | cons a rest ih =>
    simp only [occurs, Bool.or_eq_true, List.isPrefixOf_iff_prefix, ih]
    constructor
    · rintro (⟨back, eq⟩ | ⟨front, back, eq⟩)
      · exact ⟨[], back, by simp [eq]⟩
      · exact ⟨a :: front, back, by simp [eq]⟩
    · rintro ⟨front, back, eq⟩
      cases front with
      | nil => exact Or.inl ⟨back, by simpa using eq.symm⟩
      | cons b front =>
        simp only [List.cons_append, List.cons.injEq] at eq
        exact Or.inr ⟨front, back, eq.2⟩

end Text

end DistDirectives
