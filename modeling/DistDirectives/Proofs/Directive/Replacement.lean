import DistDirectives.Directive.Replacement
import DistDirectives.Proofs.Text.Blank

/-!
# The grammar of replacement bodies

A body is a replacement in backticks with two clauses behind it, each of which may be
missing, and blanks around the whole. `IsWritten` says this of a body as it stands, and
reading finds exactly the parts that the body is written with: a quoted text ends at the
next quote, and what follows the blanks behind it tells which clause comes next.
-/

namespace DistDirectives.Directive.Body

open Text (IsBlanks IsGap IsWord Stops)

/-- A clause as it is written: a keyword and a quoted text behind blanks, or nothing when
the clause is missing. -/
inductive IsClause (keyword : Text) : Option Text → Text → Prop
  | missing : IsClause keyword none []
  | given {front back content : Text} : IsGap front → IsGap back → quote ∉ content →
      IsClause keyword (some content)
        (front ++ (keyword ++ (back ++ quote :: (content ++ [quote]))))

/-- A body as it is written. -/
def IsWritten (replacement : Text) (condition alternative : Option Text) (body : Text) : Prop :=
  ∃ lead ifClause elseClause trail,
    body = lead ++ backtick :: (replacement ++ backtick :: (ifClause ++ (elseClause ++ trail))) ∧
      IsBlanks lead ∧ backtick ∉ replacement ∧ IsClause ifKeyword condition ifClause ∧
      IsClause elseKeyword alternative elseClause ∧ IsBlanks trail

/-! ## Quoted texts -/

theorem delimited?_eq_some_iff {mark : Char} {text content rest : Text} :
    delimited? mark text = some (content, rest) ↔
      text = mark :: (content ++ mark :: rest) ∧ mark ∉ content := by
  constructor
  · intro quoted
    cases text with
    | nil => contradiction
    | cons c inner =>
        simp only [delimited?] at quoted
        split at quoted
        · rename_i same
          split at quoted
          · contradiction
          · rename_i last after stopped
            cases quoted
            have stops : Stops _ (last :: rest) := stopped ▸ Text.stops_dropWhile _ inner
            have closes : last = mark := by simpa using Text.stops_cons.1 stops
            have split : inner.takeWhile (fun c => decide (c ≠ mark)) ++ mark :: rest = inner := by
              rw [closes] at stopped
              rw [← stopped]
              exact List.takeWhile_append_dropWhile
            exact ⟨by rw [same, split], Text.allOf_ne_iff.1 (Text.allOf_takeWhile _ inner)⟩
        · contradiction
  · rintro ⟨rfl, absent⟩
    have free := Text.allOf_ne_iff.2 absent
    have stops : Stops (fun c => decide (c ≠ mark)) (mark :: rest) := by simp
    simp only [delimited?, if_true, Text.dropWhile_append_of_stops free stops,
      Text.takeWhile_append_of_stops free stops]

/-! ## Clauses -/

theorem isWord_ifKeyword : IsWord ifKeyword := by
  decide

theorem isWord_elseKeyword : IsWord elseKeyword := by
  decide

section

variable {keyword : Text} (isWord : IsWord keyword)
include isWord

theorem clause?_eq_some_iff {text content rest : Text} :
    clause? keyword text = some (content, rest) ↔
      ∃ clause, text = clause ++ rest ∧ IsClause keyword (some content) clause := by
  simp only [clause?, Option.bind_eq_bind, Option.bind_eq_some_iff, Text.afterBlanks?_eq_some_iff,
    Text.after?_eq_some_iff, delimited?_eq_some_iff]
  constructor
  · rintro ⟨atKeyword, ⟨front, rfl, gap, -⟩, afterKeyword, rfl, atQuote,
      ⟨back, rfl, other, -⟩, rfl, absent⟩
    exact ⟨_, by simp, .given gap other absent⟩
  · rintro ⟨clause, rfl, isClause⟩
    cases isClause with
    | @given front back _ gap other absent =>
        have quoted : Stops Text.isBlank (quote :: (content ++ quote :: rest)) :=
          Text.stops_cons.2 (by decide)
        refine ⟨keyword ++ (back ++ quote :: (content ++ quote :: rest)),
          ⟨front, by simp, gap, isWord.stops _⟩, _, rfl, _, ⟨back, rfl, other, quoted⟩, rfl, absent⟩

/-- What is taken for a clause that may be missing is one, and nothing else is taken. -/
theorem exists_clause (text : Text) :
    ∃ clause, text = clause ++ (optionalClause keyword text).2 ∧
      IsClause keyword (optionalClause keyword text).1 clause := by
  cases found : clause? keyword text with
  | none =>
      exact ⟨[], by simp [optionalClause, found],
        by simpa [optionalClause, found] using .missing⟩
  | some parts =>
      obtain ⟨clause, split, isClause⟩ := (clause?_eq_some_iff isWord).1 found
      exact ⟨clause, by simpa [optionalClause, found] using split,
        by simpa [optionalClause, found] using isClause⟩

/-- A clause is taken as it is written, provided that a missing one is not found in what
follows. -/
theorem optionalClause_append {content : Option Text} {clause rest : Text}
    (isClause : IsClause keyword content clause)
    (ends : content = none → clause? keyword rest = none) :
    optionalClause keyword (clause ++ rest) = (content, rest) := by
  cases isClause with
  | missing => simp [optionalClause, ends rfl]
  | @given front back content gap other absent =>
      have found : clause? keyword
          (front ++ (keyword ++ (back ++ quote :: (content ++ [quote]))) ++ rest) =
            some (content, rest) :=
        (clause?_eq_some_iff isWord).2 ⟨_, rfl, .given gap other absent⟩
      simp only [optionalClause, found]

theorem clause?_eq_none_of_isBlanks {text : Text} (blanks : IsBlanks text) :
    clause? keyword text = none := by
  refine Option.eq_none_iff_forall_not_mem.2 fun ⟨content, rest⟩ found => ?_
  obtain ⟨clause, rfl, isClause⟩ := (clause?_eq_some_iff isWord).1 found
  cases isClause with
  | given =>
      have blank : Text.isBlank quote = true := blanks quote (by simp)
      exact absurd blank (by decide)

end

/-- Behind the replacement, what begins an alternative begins no condition. -/
theorem clause?_ifKeyword_eq_none {alternative : Option Text} {elseClause trail : Text}
    (isClause : IsClause elseKeyword alternative elseClause) (blanks : IsBlanks trail) :
    clause? ifKeyword (elseClause ++ trail) = none := by
  cases isClause with
  | missing => exact clause?_eq_none_of_isBlanks isWord_ifKeyword blanks
  | @given front back content gap other absent =>
      have passed : Text.afterBlanks?
          (front ++ (elseKeyword ++ (back ++ quote :: (content ++ [quote]))) ++ trail) =
          some (elseKeyword ++ (back ++ quote :: (content ++ [quote])) ++ trail) := by
        refine Text.afterBlanks?_eq_some_iff.2 ⟨front, by simp, gap, ?_⟩
        rw [List.append_assoc]
        exact isWord_elseKeyword.stops _
      rw [clause?, passed]
      rfl

/-- What a clause holds is a part of it. -/
theorem IsClause.isInfix {keyword content clause : Text}
    (isClause : IsClause keyword (some content) clause) : content <:+: clause := by
  cases isClause with
  | @given front back _ _ _ _ =>
      exact ⟨front ++ (keyword ++ (back ++ [quote])), [quote], by simp⟩

/-! ## Bodies -/

/-- What may be put in place of a line is a part of the body. -/
theorem IsWritten.isInfix {replacement body : Text} {condition alternative : Option Text}
    (isWritten : IsWritten replacement condition alternative body) {text : Text}
    (offered : text = replacement ∨ alternative = some text) : text <:+: body := by
  obtain ⟨lead, ifClause, elseClause, trail, rfl, -, -, -, isElse, -⟩ := isWritten
  rcases offered with rfl | rfl
  · exact ⟨lead ++ [backtick], backtick :: (ifClause ++ (elseClause ++ trail)), by simp⟩
  · apply isElse.isInfix.trans
    exact ⟨lead ++ backtick :: (replacement ++ backtick :: ifClause), trail, by simp⟩

/-- A body is read as the parts that it is written with. -/
theorem read?_eq_some_iff {body : Text} {directive : Directive} :
    read? body = some directive ↔
      ∃ replacement condition alternative,
        directive = .replaceLine replacement condition alternative ∧
          IsWritten replacement condition alternative body := by
  constructor
  · intro reads
    simp only [read?, Option.bind_eq_bind, Option.bind_eq_some_iff] at reads
    obtain ⟨⟨replacement, behind⟩, quoted, reads⟩ := reads
    split at reads
    · rename_i trailing
      obtain ⟨start, absent⟩ := delimited?_eq_some_iff.1 quoted
      obtain ⟨lead, split, blanks, -⟩ := Text.dropWhile_eq_iff.1 start
      obtain ⟨ifClause, ifSplit, isIf⟩ := exists_clause isWord_ifKeyword behind
      obtain ⟨elseClause, elseSplit, isElse⟩ :=
        exists_clause isWord_elseKeyword (optionalClause ifKeyword behind).2
      refine ⟨replacement, _, _, (Option.some.inj reads).symm, lead, ifClause, elseClause, _, ?_,
        blanks, absent, isIf, isElse, List.all_eq_true.1 trailing⟩
      rw [← elseSplit, ← ifSplit]
      exact split
    · contradiction
  · rintro ⟨replacement, condition, alternative, rfl,
      lead, ifClause, elseClause, trail, rfl, blanks, absent, isIf, isElse, others⟩
    have start : Text.trimStart (lead ++ backtick :: (replacement ++ backtick ::
        (ifClause ++ (elseClause ++ trail)))) =
          backtick :: (replacement ++ backtick :: (ifClause ++ (elseClause ++ trail))) :=
      Text.dropWhile_append_of_stops blanks (Text.stops_cons.2 (by decide))
    have quoted : delimited? backtick
        (backtick :: (replacement ++ backtick :: (ifClause ++ (elseClause ++ trail)))) =
          some (replacement, ifClause ++ (elseClause ++ trail)) :=
      delimited?_eq_some_iff.2 ⟨rfl, absent⟩
    have readIf := optionalClause_append isWord_ifKeyword isIf
      fun _ => clause?_ifKeyword_eq_none isElse others
    have readElse := optionalClause_append isWord_elseKeyword isElse
      fun _ => clause?_eq_none_of_isBlanks isWord_elseKeyword others
    simp only [read?, start, quoted, readIf, readElse, Option.bind_eq_bind, Option.bind_some]
    exact if_pos (List.all_eq_true.2 others)

end DistDirectives.Directive.Body
