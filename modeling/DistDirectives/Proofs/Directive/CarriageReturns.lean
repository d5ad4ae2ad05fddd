import DistDirectives.Proofs.Directive.LineEndings
import DistDirectives.Proofs.Lists

/-!
# Carriage returns in an edited text

In a text whose lines all end with a carriage return and a line feed, the two belong together. An
edit takes them apart: a carriage return goes or stays with the line in front of it, but a line
feed only stands between two lines that are left (`isCrlf_joinWith_iff`). So an edited text still
ends all its lines in this way, unless the last line goes and another one stays. Then the line
feed behind the last carriage return is missing, and nothing else (`isCrlf_revised_iff`).
-/

namespace DistDirectives.Edit

variable {path content text raw line rest : Text} {lines : List Text}

/-! ## Pairs of a carriage return and a line feed -/

/-- Carriage returns and line feeds come in pairs. -/
structure IsCrlf (text : Text) : Prop where
  /-- A line feed stands right behind each carriage return. -/
  feed_behind : ∀ front back, text = front ++ '\r' :: back → back.head? = some '\n'
  /-- A carriage return stands right before each line feed. -/
  return_before : ∀ front back, text = front ++ '\n' :: back → front.getLast? = some '\r'

/-- A line with its one carriage return at the end. -/
def IsReturned (raw : Text) : Prop := ∃ line, raw = line ++ ['\r'] ∧ '\r' ∉ line

theorem isReturned_iff : IsReturned raw ↔ raw.getLast? = some '\r' ∧ '\r' ∉ raw.dropLast := by
  constructor
  · rintro ⟨line, rfl, absent⟩
    rw [List.getLast?_concat, List.dropLast_concat]
    exact ⟨rfl, absent⟩
  · rintro ⟨ends, absent⟩
    obtain ⟨line, rfl⟩ := List.getLast?_eq_some_iff.1 ends
    rw [List.dropLast_concat] at absent
    exact ⟨line, rfl, absent⟩

instance (raw : Text) : Decidable (IsReturned raw) := decidable_of_iff' _ isReturned_iff

/-- The first line of a text whose pairs are whole ends with a carriage return, which is its only
one. -/
theorem IsCrlf.isReturned (crlf : IsCrlf (raw ++ '\n' :: rest)) (oneLine : '\n' ∉ raw) :
    IsReturned raw := by
  obtain ⟨line, rfl⟩ := List.getLast?_eq_some_iff.1 (crlf.return_before raw rest rfl)
  refine ⟨line, rfl, fun inside => ?_⟩
  obtain ⟨front, back, rfl⟩ := List.append_of_mem inside
  have feed := crlf.feed_behind front (back ++ '\r' :: '\n' :: rest) (by simp)
  cases back with
  | nil => simp at feed
  | cons c back =>
      rw [List.cons_append, List.head?_cons, Option.some.injEq] at feed
      exact oneLine (by simp [feed])

/-- The pairs behind the first line are whole if all are. -/
theorem IsCrlf.tail (crlf : IsCrlf (raw ++ '\n' :: rest)) : IsCrlf rest := by
  constructor
  · rintro front back rfl
    exact crlf.feed_behind (raw ++ '\n' :: front) back (by simp)
  · rintro front back rfl
    have before := crlf.return_before (raw ++ '\n' :: front) back (by simp)
    cases front with
    | nil => simp at before
    | cons c front => rwa [List.getLast?_append_cons, List.getLast?_cons_cons] at before

/-- A line that ends with its carriage return can be put in front. -/
theorem IsReturned.isCrlf (returned : IsReturned raw) (oneLine : '\n' ∉ raw) (crlf : IsCrlf rest) :
    IsCrlf (raw ++ '\n' :: rest) := by
  constructor
  · intro front back split
    obtain ⟨line, rfl, absent⟩ := returned
    rw [List.append_assoc] at split
    obtain ⟨between, rfl, behind⟩ := exists_behind_of_append_eq split absent
    -- the carriage return is the one of the line, or stands behind the line feed of the line
    cases between with
    | nil => exact (List.cons.inj behind).2 ▸ rfl
    | cons c between =>
        cases between with
        | nil => simp at behind
        | cons d between =>
            exact crlf.feed_behind between back (List.cons.inj (List.cons.inj behind).2).2
  · intro front back split
    obtain ⟨between, rfl, behind⟩ := exists_behind_of_append_eq split oneLine
    cases between with
    | nil => simpa using (isReturned_iff.1 returned).1
    | cons c between =>
        have before := crlf.return_before between back (List.cons.inj behind).2
        cases between with
        | nil => simp at before
        | cons d between => rwa [List.getLast?_append_cons, List.getLast?_cons_cons]

/-- In a text of one line there are no pairs. -/
theorem isCrlf_iff_of_oneLine (oneLine : '\n' ∉ raw) : IsCrlf raw ↔ '\r' ∉ raw := by
  constructor
  · intro crlf inside
    obtain ⟨front, back, rfl⟩ := List.append_of_mem inside
    have feed := List.mem_of_mem_head? (crlf.feed_behind front back rfl)
    exact oneLine (by simp [feed])
  · intro absent
    constructor
    · rintro front back rfl
      exact absurd (by simp) absent
    · rintro front back rfl
      exact absurd (by simp) oneLine

/-- The pairs of a text are whole when all its lines but the last one end with a carriage return,
and there are no others. -/
theorem isCrlf_joinWith_iff {last : Text} (oneLine : ∀ raw ∈ lines ++ [last], '\n' ∉ raw) :
    IsCrlf (Text.joinWith '\n' (lines ++ [last])) ↔
      (∀ raw ∈ lines, IsReturned raw) ∧ '\r' ∉ last := by
  induction lines with
  | nil => simpa [Text.joinWith] using isCrlf_iff_of_oneLine (oneLine last (by simp))
  | cons raw lines ih =>
      have first : '\n' ∉ raw := oneLine raw (by simp)
      have later := ih fun other mem => oneLine other (List.mem_cons_of_mem raw mem)
      rw [List.cons_append, Text.joinWith_cons '\n' raw (by simp), List.forall_mem_cons,
        and_assoc, ← later]
      constructor
      · exact fun crlf => ⟨crlf.isReturned first, crlf.tail⟩
      · rintro ⟨returned, crlf⟩
        exact returned.isCrlf first crlf

theorem isCrlf_iff :
    IsCrlf content ↔ (∀ raw ∈ (Text.splitOn '\n' content).dropLast, IsReturned raw) ∧
      ∀ last ∈ (Text.splitOn '\n' content).getLast?, '\r' ∉ last := by
  obtain ⟨front, last, split⟩ :=
    (List.eq_nil_or_concat' (Text.splitOn '\n' content)).resolve_left (Text.splitOn_ne_nil _ _)
  have oneLine : ∀ raw ∈ front ++ [last], '\n' ∉ raw := fun raw mem =>
    Text.not_mem_of_mem_splitOn (split ▸ mem)
  have joined := isCrlf_joinWith_iff oneLine
  rw [← split, Text.joinWith_splitOn] at joined
  simpa [split] using joined

instance (content : Text) : Decidable (IsCrlf content) := decidable_of_iff' _ isCrlf_iff

/-! ## What lines leave -/

/-- What a line leaves that ends with its carriage return ends with it, too. -/
theorem IsReturned.emitted (returned : IsReturned raw)
    (leaves : Edit.emitted path raw = some line) :
    IsReturned line := by
  rcases emitted_cases path raw with ⟨-, emits⟩ | ⟨text, -, emits, part, -⟩ | ⟨-, gone⟩
  · exact Option.some.inj (emits.symm.trans leaves) ▸ returned
  · obtain ⟨front, rfl, absent⟩ := returned
    have aside : setAside (front ++ ['\r']) = (front, ['\r']) := setAside_eq_iff.2 ⟨rfl, .inl rfl⟩
    rw [aside] at emits part
    obtain rfl := Option.some.inj (emits.symm.trans leaves)
    rw [List.append_sublist_append_right] at part
    exact ⟨text, rfl, fun inside => absent (part.subset inside)⟩
  · exact absurd (gone.symm.trans leaves) (by simp)

/-- The last line goes, and another one stays. -/
def LosesLastLine (path : Text) (lines : List Text) : Prop :=
  ∃ front last, lines = front ++ [last] ∧ emitted path last = none ∧
    ∃ raw ∈ front, emitted path raw ≠ none

theorem losesLastLine_concat_iff {last : Text} :
    LosesLastLine path (lines ++ [last]) ↔
      emitted path last = none ∧ ∃ raw ∈ lines, emitted path raw ≠ none := by
  constructor
  · rintro ⟨front, other, split, gone, left⟩
    obtain ⟨rfl, same⟩ := List.append_inj' split rfl
    cases same
    exact ⟨gone, left⟩
  · rintro ⟨gone, left⟩
    exact ⟨lines, last, rfl, gone, left⟩

/-- A text whose lines end with carriage returns and line feeds is edited to such a text, unless the
last line goes and another one stays. Then it is one with a line feed behind it. -/
theorem isCrlf_revised_iff (crlf : IsCrlf content)
    (revised : (apply path content).edit = .revised text) :
    (IsCrlf text ↔ ¬LosesLastLine path (Text.splitOn '\n' content)) ∧
      (LosesLastLine path (Text.splitOn '\n' content) → IsCrlf (text ++ ['\n'])) := by
  obtain ⟨rfl, -⟩ := eq_remains_of_revised revised
  have oneLine := lineFeed_not_mem_left path content
  obtain ⟨front, last, split⟩ :=
    (List.eq_nil_or_concat' (Text.splitOn '\n' content)).resolve_left (Text.splitOn_ne_nil _ _)
  obtain ⟨returned, absent⟩ := isCrlf_iff.1 crlf
  rw [remains]
  rw [split, List.dropLast_concat] at returned
  replace absent : '\r' ∉ last := absent last (by simp [split])
  rw [split, List.filterMap_append] at oneLine ⊢
  rw [losesLastLine_concat_iff, ← left_ne_nil_iff]
  have leftReturned : ∀ line ∈ front.filterMap (emitted path), IsReturned line := by
    intro line mem
    obtain ⟨raw, source, leaves⟩ := List.mem_filterMap.1 mem
    exact (returned raw source).emitted leaves
  cases stays : emitted path last with
  | some line =>
      have leftLast : '\r' ∉ line := fun inside => absent ((emitted_sublist stays).subset inside)
      rw [List.filterMap_cons_some stays, List.filterMap_nil] at oneLine ⊢
      simp only [reduceCtorEq, false_and, not_false_eq_true, iff_true, false_implies, and_true]
      exact (isCrlf_joinWith_iff oneLine).2 ⟨leftReturned, leftLast⟩
  | none =>
      rw [List.filterMap_cons_none stays, List.filterMap_nil, List.append_nil] at oneLine ⊢
      rcases List.eq_nil_or_concat' (front.filterMap (emitted path)) with none_left |
        ⟨others, line, left⟩
      · simpa [none_left, Text.joinWith] using isCrlf_iff_of_oneLine (List.not_mem_nil (a := '\n'))
      · rw [left] at oneLine leftReturned ⊢
        have ended : '\r' ∈ line :=
          List.mem_of_getLast? (isReturned_iff.1 (leftReturned line (by simp))).1
        have closed : Text.joinWith '\n' (others ++ [line] ++ [[]]) =
            Text.joinWith '\n' (others ++ [line]) ++ ['\n'] :=
              Text.joinWith_append (by simp) (by simp)
        have oneLineClosed : ∀ raw ∈ others ++ [line] ++ [[]], '\n' ∉ raw := by
          simpa [or_imp, forall_and] using oneLine
        rw [← closed, isCrlf_joinWith_iff oneLine, isCrlf_joinWith_iff oneLineClosed]
        simpa [ended] using leftReturned

/-- Pairs of lines that are left stay whole. Behind a last line that goes only the line feed is
missing. -/
theorem isCrlf_revised_iff_small :
    (IsCrlf "a // <dler-remove-line>\r\nb\r\nc".toList ∧
      (apply "dist-npm/a.js".toList "a // <dler-remove-line>\r\nb\r\nc".toList).edit =
        .revised "b\r\nc".toList ∧
        ¬LosesLastLine "dist-npm/a.js".toList
          (Text.splitOn '\n' "a // <dler-remove-line>\r\nb\r\nc".toList)) ∧
      (apply "dist-npm/a.js".toList "a\r\nb // <dler-remove-line>".toList).edit =
        .revised "a\r".toList ∧
        IsCrlf ("a\r".toList ++ ['\n']) := by
  constructor
  · have crlf : IsCrlf "a // <dler-remove-line>\r\nb\r\nc".toList := by decide +kernel
    have revised : (apply "dist-npm/a.js".toList "a // <dler-remove-line>\r\nb\r\nc".toList).edit =
        .revised "b\r\nc".toList := by decide +kernel
    exact ⟨crlf, revised, (isCrlf_revised_iff crlf revised).1.1 (by decide)⟩
  · have crlf : IsCrlf "a\r\nb // <dler-remove-line>".toList := by decide +kernel
    have revised : (apply "dist-npm/a.js".toList "a\r\nb // <dler-remove-line>".toList).edit =
        .revised "a\r".toList := by decide +kernel
    have lost : LosesLastLine "dist-npm/a.js".toList
        (Text.splitOn '\n' "a\r\nb // <dler-remove-line>".toList) :=
      ⟨["a\r".toList], "b // <dler-remove-line>".toList, by decide, by decide +kernel, "a\r".toList,
        by decide +kernel⟩
    exact ⟨revised, (isCrlf_revised_iff crlf revised).2 lost⟩

/-- Removing the last line leaves half of the pair in front of it. -/
theorem isCrlf_not_preserved :
    IsCrlf "a\r\nb // <dler-remove-line>".toList ∧
      (apply "dist-npm/a.js".toList "a\r\nb // <dler-remove-line>".toList).edit =
        .revised "a\r".toList ∧
        ¬IsCrlf "a\r".toList := by
  decide +kernel

end DistDirectives.Edit
