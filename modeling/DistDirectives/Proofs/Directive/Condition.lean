import DistDirectives.Directive.Condition
import DistDirectives.Proofs.Text.Blank

/-!
# The language of conditions

Reading a condition cuts its list at each `or` between blanks and asks of every piece
that it is one word. What is accepted that way is said here without cutting: the list
consists of words with gaps between them, their number is odd, and every second one is
`or`. The words between are the leads, so that `or` itself can be one.

Between the two stands `Cut`, pieces with separators between them. Cutting a text yields
such pieces for every text (`cut_pieces`), and it yields the given ones when they are
words (`pieces_eq_of_cut`).
-/

namespace DistDirectives.Condition

open Text (IsBlanks IsGap IsWord Stops)

/-! ## Words with gaps -/

/-- The words, one after the other, with a gap between any two. -/
inductive Spaced : List Text → Text → Prop
  | single {word : Text} : IsWord word → Spaced [word] word
  | cons {word gap list : Text} {words : List Text} :
      IsWord word → IsGap gap → Spaced words list → Spaced (word :: words) (word ++ (gap ++ list))

/-- The first element of a list, the third, and so on. -/
def everySecond {α : Type} : List α → List α
  | [] => []
  | [a] => [a]
  | a :: _ :: rest => a :: everySecond rest

/-- There is an odd number of words, and those at the second place, the fourth and so on
are `or`. -/
structure Alternates (words : List Text) : Prop where
  odd : words.length % 2 = 1
  ors : ∀ i word, words[2 * i + 1]? = some word → word = orWord

theorem alternates_cons_cons_iff {first second : Text} {words : List Text} :
    Alternates (first :: second :: words) ↔ second = orWord ∧ Alternates words := by
  have parity : (first :: second :: words).length % 2 = words.length % 2 := by
    simp only [List.length_cons]
    omega
  constructor
  · rintro ⟨odd, ors⟩
    refine ⟨ors 0 second rfl, parity ▸ odd, fun i word found => ors (i + 1) word ?_⟩
    simpa [Nat.mul_add] using found
  · rintro ⟨rfl, odd, ors⟩
    refine ⟨parity.trans odd, fun i word found => ?_⟩
    cases i with
    | zero => simpa using found.symm
    | succ i => exact ors i word (by simpa [Nat.mul_add] using found)

/-! ## Pieces between separators -/

/-- A separator: `or` with a gap on both sides. -/
def IsSeparator (separator : Text) : Prop :=
  ∃ front back, separator = front ++ (orWord ++ back) ∧ IsGap front ∧ IsGap back

/-- The pieces, one after the other, with a separator between any two. -/
inductive Cut : List Text → Text → Prop
  | single (piece : Text) : Cut [piece] piece
  | cons (piece : Text) {separator list : Text} {pieces : List Text} :
      IsSeparator separator → Cut pieces list → Cut (piece :: pieces) (piece ++ (separator ++ list))

theorem isWord_orWord : IsWord orWord := by
  decide

theorem IsSeparator.ne_nil {separator : Text} (isSeparator : IsSeparator separator) :
    separator ≠ [] := by
  rintro rfl
  obtain ⟨front, back, empty, gap, -⟩ := isSeparator
  exact gap.ne_nil (List.append_eq_nil_iff.1 empty.symm).1

/-- A text begins with a separator that is followed by no blank exactly when the
separator is passed over. -/
theorem afterSeparator?_eq_some_iff {text behind : Text} :
    afterSeparator? text = some behind ↔
      ∃ separator, text = separator ++ behind ∧ IsSeparator separator ∧
        Stops Text.isBlank behind := by
  simp only [afterSeparator?, Option.bind_eq_bind, Option.bind_eq_some_iff,
    Text.afterBlanks?_eq_some_iff, Text.after?_eq_some_iff]
  constructor
  · rintro ⟨atWord, ⟨front, rfl, gap, -⟩, behindWord, rfl, back, rfl, other, stops⟩
    exact ⟨front ++ (orWord ++ back), by simp, ⟨front, back, rfl, gap, other⟩, stops⟩
  · rintro ⟨separator, rfl, ⟨front, back, rfl, gap, other⟩, stops⟩
    exact ⟨orWord ++ (back ++ behind), ⟨front, by simp, gap, isWord_orWord.stops _⟩,
      back ++ behind, rfl, back, rfl, other, stops⟩

theorem afterSeparator?_eq_none_of_stops {text : Text} (stops : Stops Text.isBlank text) :
    afterSeparator? text = none := by
  simp [afterSeparator?, Text.afterBlanks?_eq_none_of_stops stops]

/-- The count of characters that are passed over is a length. -/
theorem pieces_length_append (front back : Text) :
    pieces front.length (front ++ back) = pieces 0 back := by
  induction front with
  | nil => rfl
  | cons c front ih => simpa [pieces] using ih

theorem pieces_separator {separator behind : Text} (isSeparator : IsSeparator separator)
    (stops : Stops Text.isBlank behind) :
    pieces 0 (separator ++ behind) = [] :: pieces 0 behind := by
  have passed := afterSeparator?_eq_some_iff.2 ⟨separator, rfl, isSeparator, stops⟩
  cases separator with
  | nil => exact absurd rfl isSeparator.ne_nil
  | cons c separator =>
      rw [List.cons_append] at passed
      simp [pieces, passed, pieces_length_append]

/-- A piece goes on as long as no separator begins. -/
theorem pieces_cons {c : Char} {rest piece : Text} {more : List Text}
    (goesOn : afterSeparator? (c :: rest) = none) (others : pieces 0 rest = piece :: more) :
    pieces 0 (c :: rest) = (c :: piece) :: more := by
  simp [pieces, goesOn, others]

theorem pieces_append_of_solid {front back piece : Text} {more : List Text}
    (solid : ∀ c ∈ front, Text.isBlank c = false) (others : pieces 0 back = piece :: more) :
    pieces 0 (front ++ back) = (front ++ piece) :: more := by
  induction front with
  | nil => simpa using others
  | cons c front ih =>
      have goesOn : afterSeparator? (c :: (front ++ back)) = none :=
        afterSeparator?_eq_none_of_stops (Text.stops_cons.2 (solid c (by simp)))
      exact pieces_cons goesOn (ih fun d mem => solid d (by simp [mem]))

theorem Cut.prepend {c : Char} {piece list : Text} {more : List Text}
    (cut : Cut (piece :: more) list) : Cut ((c :: piece) :: more) (c :: list) := by
  cases cut with
  | single => exact .single (c :: piece)
  | cons _ separator others => exact .cons (c :: piece) separator others

/-- Every text is its pieces with separators between them. -/
theorem cut_pieces (text : Text) : Cut (pieces 0 text) text := by
  -- a separator is passed over as a whole, so the induction is on the length
  induction length : text.length using Nat.strongRecOn generalizing text with
  | ind n ih =>
      cases text with
      | nil => exact .single []
      | cons c rest =>
          cases passed : afterSeparator? (c :: rest) with
          | some behind =>
              obtain ⟨separator, split, isSeparator, stops⟩ := afterSeparator?_eq_some_iff.1 passed
              have nonempty := List.length_pos_iff.2 isSeparator.ne_nil
              have shorter : behind.length < n := by
                rw [← length, split, List.length_append]
                omega
              rw [split, pieces_separator isSeparator stops]
              exact .cons [] isSeparator (ih _ shorter behind rfl)
          | none =>
              have others := ih rest.length (by simp [← length]) rest rfl
              cases found : pieces 0 rest with
              | nil => simp [found] at others; cases others
              | cons piece more =>
                  rw [pieces_cons passed found]
                  exact (found ▸ others).prepend

/-- Words with separators between them are what the text is cut into. -/
theorem pieces_eq_of_cut {leads : List Text} {list : Text} (cut : Cut leads list)
    (words : ∀ lead ∈ leads, IsWord lead) :
    pieces 0 list = leads := by
  induction cut with
  | single piece =>
      have nothingElse : pieces 0 [] = [[]] := rfl
      simpa using pieces_append_of_solid (words piece (by simp)).solid nothingElse
  | @cons piece separator list leads isSeparator others ih =>
      have later := ih fun lead mem => words lead (by simp [mem])
      have stops : Stops Text.isBlank list := by
        cases others with
        | single => simpa using (words list (by simp)).stops []
        | cons next _ _ => exact (words next (by simp)).stops _
      have behind : pieces 0 (separator ++ list) = [] :: leads := by
        rw [pieces_separator isSeparator stops, later]
      simpa using pieces_append_of_solid (words piece (by simp)).solid behind

/-- Blanks around the pieces belong to the separators, except at the two ends. -/
theorem Cut.trim {pieces : List Text} {text : Text} (cut : Cut pieces text) :
    ∃ lead list trail, text = lead ++ list ++ trail ∧ IsBlanks lead ∧ IsBlanks trail ∧
      Cut (pieces.map Text.trim) list := by
  induction cut with
  | single piece =>
      obtain ⟨lead, trail, split, blanks, others⟩ := Text.exists_blanks_around_trim piece
      exact ⟨lead, Text.trim piece, trail, split, blanks, others, .single _⟩
  | cons piece isSeparator _ ih =>
      obtain ⟨lead, inner, split, blanks, innerBlanks⟩ := Text.exists_blanks_around_trim piece
      obtain ⟨next, list, trail, rfl, nextBlanks, trailBlanks, others⟩ := ih
      obtain ⟨front, back, rfl, gap, other⟩ := isSeparator
      have wider : IsSeparator ((inner ++ front) ++ (orWord ++ (back ++ next))) :=
        ⟨_, _, rfl, gap.after innerBlanks, other.append nextBlanks⟩
      refine ⟨lead, _, trail, ?_, blanks, trailBlanks, .cons (Text.trim piece) wider others⟩
      calc piece ++ ((front ++ (orWord ++ back)) ++ (next ++ list ++ trail))
          = (lead ++ Text.trim piece ++ inner) ++
              ((front ++ (orWord ++ back)) ++ (next ++ list ++ trail)) := congrArg (· ++ _) split
        _ = lead ++ (Text.trim piece ++
              (((inner ++ front) ++ (orWord ++ (back ++ next))) ++ list)) ++ trail := by
            simp only [List.append_assoc]

/-! ## Leads between separators are the words at odd places -/

/-- Leads with separators between them are every second one of alternating words. -/
theorem cut_words_iff {leads : List Text} {list : Text} :
    (Cut leads list ∧ ∀ lead ∈ leads, IsWord lead) ↔
      ∃ words, Spaced words list ∧ Alternates words ∧ leads = everySecond words := by
  constructor
  · rintro ⟨cut, words⟩
    induction cut with
    | single lead =>
        exact ⟨[lead], .single (words lead (by simp)), ⟨rfl, by simp⟩, rfl⟩
    | cons lead isSeparator _ ih =>
        obtain ⟨front, back, rfl, gap, other⟩ := isSeparator
        obtain ⟨others, spaced, alternates, rfl⟩ := ih fun next mem => words next (by simp [mem])
        refine ⟨lead :: orWord :: others, ?_, alternates_cons_cons_iff.2 ⟨rfl, alternates⟩, rfl⟩
        simpa using Spaced.cons (words lead (by simp)) gap (.cons isWord_orWord other spaced)
  · rintro ⟨words, spaced, alternates, rfl⟩
    induction words using everySecond.induct generalizing list with
    | case1 => cases spaced
    | case2 word =>
        cases spaced with
        | single isWord => exact ⟨.single word, by simpa [everySecond] using isWord⟩
        | cons _ _ others => cases others
    | case3 word second words ih =>
        obtain ⟨rfl, others⟩ := alternates_cons_cons_iff.1 alternates
        cases spaced with
        | cons isWord gap rest =>
            cases rest with
            | single => exact absurd others.odd (by simp)
            | cons _ other spaced =>
                obtain ⟨cut, isWords⟩ := ih spaced others
                have separated := Cut.cons word ⟨_, _, rfl, gap, other⟩ cut
                exact ⟨by simpa [everySecond] using separated,
                  by simpa [everySecond] using ⟨isWord, isWords⟩⟩

/-! ## Reading -/

/-- The words of the list in a text that is written as a condition: the fixed beginning,
a gap, and the words on one line, with blanks around the whole. -/
def IsWritten (words : List Text) (text : Text) : Prop :=
  ∃ lead gap list trail, text = lead ++ opening ++ gap ++ list ++ trail ∧
    IsBlanks lead ∧ IsGap gap ∧ Spaced words list ∧ '\n' ∉ list ∧ IsBlanks trail

theorem isLead_iff {piece : Text} : isLead piece = true ↔ IsWord piece := by
  simp [isLead, Text.isWord_iff, Text.AllOf]

/-- Slashes and backslashes are no blanks. -/
theorem isWord_slashed_iff {piece : Text} : IsWord (Path.slashed piece) ↔ IsWord piece := by
  have same (c : Char) : Text.isBlank (if c = '\\' then '/' else c) = Text.isBlank c := by
    split
    · rename_i backslash
      rw [backslash]
      decide
    · rfl
  constructor
  · rintro ⟨nonempty, solid⟩
    refine ⟨by simpa [Path.slashed] using nonempty, fun c mem => ?_⟩
    rw [← same]
    exact solid _ (List.mem_map_of_mem mem)
  · rintro ⟨nonempty, solid⟩
    refine ⟨by simpa [Path.slashed] using nonempty, fun c mem => ?_⟩
    obtain ⟨d, before, rfl⟩ := List.mem_map.1 mem
    rw [same]
    exact solid d before

theorem Spaced.exists_word_append {words : List Text} {list : Text} (spaced : Spaced words list) :
    ∃ word rest, list = word ++ rest ∧ IsWord word := by
  cases spaced with
  | single isWord => exact ⟨list, [], by simp, isWord⟩
  | cons isWord _ _ => exact ⟨_, _, rfl, isWord⟩

theorem Spaced.exists_append_word {words : List Text} {list : Text} (spaced : Spaced words list) :
    ∃ front word, list = front ++ word ∧ IsWord word := by
  induction spaced with
  | @single word isWord => exact ⟨[], word, rfl, isWord⟩
  | @cons word gap _ _ _ _ _ ih =>
      obtain ⟨front, last, rfl, isWord⟩ := ih
      exact ⟨word ++ (gap ++ front), last, by simp, isWord⟩

theorem stops_opening (rest : Text) : Stops Text.isBlank (opening ++ rest) := by
  intro c first
  have head : (opening ++ rest).head? = some 'c' := rfl
  cases head.symm.trans first
  decide

/-- The list of a written condition is what reading cuts. -/
theorem list_of_isWritten {lead gap list trail : Text} {words : List Text}
    (blanks : IsBlanks lead) (isGap : IsGap gap) (spaced : Spaced words list)
    (others : IsBlanks trail) :
    Text.trimStart (lead ++ opening ++ gap ++ list ++ trail) =
        opening ++ (gap ++ (list ++ trail)) ∧
      Text.afterBlanks? (gap ++ (list ++ trail)) = some (list ++ trail) ∧
      Text.trimEnd (list ++ trail) = list := by
  obtain ⟨first, rest, firstSplit, firstWord⟩ := spaced.exists_word_append
  obtain ⟨front, last, lastSplit, lastWord⟩ := spaced.exists_append_word
  refine ⟨?_, ?_, ?_⟩
  · exact Text.dropWhile_eq_iff.2 ⟨lead, by simp, blanks, stops_opening _⟩
  · refine Text.afterBlanks?_eq_some_iff.2 ⟨gap, rfl, isGap, ?_⟩
    rw [firstSplit, List.append_assoc]
    exact firstWord.stops _
  · refine Text.dropEndWhile_eq_iff.2 ⟨trail, rfl, others, ?_⟩
    rw [lastSplit]
    exact lastWord.stops_reverse _

/-- What reading looks at, one thing after the other. -/
theorem read?_eq_some_iff {text : Text} {condition : Condition} :
    read? text = some condition ↔
      ∃ atGap, Text.trimStart text = opening ++ atGap ∧
        ∃ atList, Text.afterBlanks? atGap = some atList ∧
          '\n' ∉ Text.trimEnd atList ∧
          (∀ lead ∈ (pieces 0 (Text.trimEnd atList)).map Text.trim, IsWord lead) ∧
          condition.leads = ((pieces 0 (Text.trimEnd atList)).map Text.trim).map Path.slashed := by
  cases condition with
  | mk leads =>
      simp only [read?, Option.bind_eq_bind, Option.bind_eq_some_iff, Text.after?_eq_some_iff]
      refine exists_congr fun atGap => and_congr_right fun _ => exists_congr fun atList =>
        and_congr_right fun _ => ?_
      by_cases broken : '\n' ∈ Text.trimEnd atList
      · simp [broken]
      · have allWords (texts : List Text) :
            (texts.map fun piece => Path.slashed (Text.trim piece)).all isLead = true ↔
              ∀ lead ∈ texts.map Text.trim, IsWord lead := by
          simp [isLead_iff, isWord_slashed_iff]
        simp only [List.contains_iff_mem, broken, if_false, not_false_eq_true, true_and,
          Option.ite_none_right_eq_some, allWords, Option.some.injEq, mk.injEq, List.map_map]
        exact and_congr_right fun _ => eq_comm

theorem holds_iff {condition : Condition} {path : Text} :
    condition.holds path = true ↔ ∃ lead ∈ condition.leads, lead <+: Path.slashed path := by
  simp [holds]

/-- A text is read as a condition exactly when it is the fixed beginning with alternating
words behind it. The leads are then the words at odd places, with slashes for
backslashes, and the condition holds for the paths that begin with one of them. -/
theorem read_words_exact (text : Text) (condition : Condition) :
    (read? text = some condition ↔
        ∃ words, IsWritten words text ∧ Alternates words ∧
          condition.leads = (everySecond words).map Path.slashed) ∧
      ∀ path, condition.holds path = true ↔
        ∃ lead ∈ condition.leads, lead <+: Path.slashed path := by
  refine ⟨?_, fun path => holds_iff⟩
  rw [read?_eq_some_iff]
  constructor
  · rintro ⟨atGap, start, atList, passed, oneLine, isWords, leads_eq⟩
    obtain ⟨lead, split, blanks, -⟩ := Text.dropWhile_eq_iff.1 start
    obtain ⟨gap, rfl, isGap, -⟩ := Text.afterBlanks?_eq_some_iff.1 passed
    obtain ⟨trail, splitEnd, others, -⟩ :=
      Text.dropEndWhile_eq_iff.1 (rfl : Text.trimEnd atList = _)
    obtain ⟨front, list, back, listSplit, frontBlanks, backBlanks, cut⟩ :=
      (cut_pieces (Text.trimEnd atList)).trim
    obtain ⟨words, spaced, alternates, words_eq⟩ := cut_words_iff.1 ⟨cut, isWords⟩
    refine ⟨words, ⟨lead, gap ++ front, list, back ++ trail, ?_, blanks, isGap.append frontBlanks,
      spaced, ?_, backBlanks.append others⟩, alternates, by rw [leads_eq, words_eq]⟩
    · rw [split, splitEnd, listSplit]
      simp only [List.append_assoc]
    · rw [listSplit] at oneLine
      exact fun mem => oneLine (by simp [mem])
  · rintro ⟨words, ⟨lead, gap, list, trail, rfl, blanks, isGap, spaced, oneLine, others⟩,
      alternates, leads_eq⟩
    obtain ⟨start, passed, listEq⟩ := list_of_isWritten blanks isGap spaced others
    obtain ⟨cut, isWords⟩ := cut_words_iff.2 ⟨words, spaced, alternates, rfl⟩
    have trimmed : (pieces 0 list).map Text.trim = everySecond words := by
      rw [pieces_eq_of_cut cut isWords]
      exact (List.map_congr_left fun word mem => (isWords word mem).trim_eq).trans (List.map_id _)
    refine ⟨_, start, _, passed, ?_⟩
    rw [listEq, trimmed]
    exact ⟨oneLine, isWords, leads_eq⟩

example : read? " current file path starts with or\t or  a\\b ".toList =
    some ⟨["or".toList, "a/b".toList]⟩ := by decide

end DistDirectives.Condition
