import Mathlib.Data.List.Basic
import DistDirectives.Directive.Scan
import DistDirectives.Proofs.Directive.Replacement

/-!
# The grammar of directive lines

An occurrence of a directive splits its line into seven parts: what stands before, the
comment marker, blanks and possibly an annotation, the token, a name, a body with its
closing bracket, and what stands after. A line can have many. The one that counts starts
at the leftmost marker, and among those it has the longest name and then the longest body.

Scanning never goes back. It is held to the grammar in three steps: from a marker at most
one token can be reached (`atMarker?_approach`), from a token at most one name and body
are taken, and these are the longest (`nameAndBody?_eq_some_iff`, `exists_longest`), and
the first marker from which both are found is the leftmost of all occurrences
(`exists_of_scan`). `read_exact` puts them together.
-/

namespace DistDirectives.Directive

open Text (AllOf IsBlanks IsWord Stops)

/-! ## Occurrences -/

/-- Between two texts a word begins or ends: a word character stands on one side only. -/
def IsWordBoundary (front back : Text) : Prop :=
  front.getLast?.any Text.isWordChar ≠ back.head?.any Text.isWordChar

/-- What may stand between the blanks and the token: nothing, or the keyword of an
annotation, which ends there, with an explanation that has no opening bracket. -/
def IsRemark (text : Text) : Prop :=
  text = [] ∨ ∃ keyword ∈ annotations, ∃ explanation, text = keyword ++ explanation ∧
    IsWordBoundary keyword (explanation ++ token) ∧ '<' ∉ explanation

/-- A directive by the parts that its line splits into. -/
structure Occurrence where
  before : Text
  blanks : Text
  remark : Text
  name : Text
  body : Text
  after : Text

namespace Occurrence

/-- What follows the token. -/
def behindToken (o : Occurrence) : Text := o.name ++ (o.body ++ '>' :: o.after)

/-- What stands from the marker on. -/
def fromMarker (o : Occurrence) : Text :=
  commentMarker ++ ((o.blanks ++ o.remark) ++ (token ++ o.behindToken))

/-- The line that the parts make up. -/
def line (o : Occurrence) : Text := o.before ++ o.fromMarker

/-- The parts make up the line and each of them is what it has to be. -/
structure IsIn (o : Occurrence) (line : Text) : Prop where
  line_eq : line = o.line
  blanks : IsBlanks o.blanks
  remark : IsRemark o.remark
  named : o.name ≠ []
  solid : ∀ c ∈ o.name, Text.isBlank c = false ∧ c ≠ '>'
  oneLine : '\n' ∉ o.body

/-- The occurrence that counts: it starts first, then its name is the longest, and then
its body. -/
structure IsFirst (o : Occurrence) (line : Text) : Prop where
  isIn : o.IsIn line
  leftmost : ∀ other : Occurrence, other.IsIn line → o.before.length ≤ other.before.length
  longestName : ∀ other : Occurrence, other.IsIn line → other.before = o.before →
    other.name.length ≤ o.name.length
  longestBody : ∀ other : Occurrence, other.IsIn line → other.before = o.before →
    other.name = o.name → other.body.length ≤ o.body.length

end Occurrence

/-- What a name and a body say. -/
inductive Means : Text → Text → Reading → Prop
  | removeLine (body : Text) : Means removeLineName body (.directive .removeLine)
  | removeFile (body : Text) : Means removeFileName body (.directive .removeFile)
  | removeComment (body : Text) : Means removeCommentName body (.directive .removeComment)
  | replaceLine {replacement body : Text} {condition alternative : Option Text} :
      Body.IsWritten replacement condition alternative body →
        Means replaceLineName body (.directive (.replaceLine replacement condition alternative))
  | malformed {body : Text} :
      (∀ replacement condition alternative,
        ¬Body.IsWritten replacement condition alternative body) →
        Means replaceLineName body (.malformed replaceLineName (Text.trim body))
  | unknown {name : Text} (body : Text) :
      name ∉ [removeLineName, removeFileName, removeCommentName, replaceLineName] →
        Means name body (.unknown name)

/-! ## From a marker to a token -/

/-- What leads from a marker to a token. -/
def IsApproach (approach : Text) : Prop :=
  ∃ blanks remark, approach = blanks ++ remark ∧ IsBlanks blanks ∧ IsRemark remark

theorem isWordBoundary_iff {keyword back : Text} (mem : keyword ∈ annotations) :
    IsWordBoundary keyword back ↔ Text.wordEnds back = true := by
  have ends : keyword.getLast?.any Text.isWordChar = true := by
    revert keyword
    decide
  rw [IsWordBoundary, ends]
  cases back <;> simp [Text.wordEnds]

theorem bracket_not_mem_keyword : ∀ keyword ∈ annotations, '<' ∉ keyword := by
  decide

theorem IsRemark.bracket_not_mem {remark : Text} (isRemark : IsRemark remark) :
    '<' ∉ remark := by
  rcases isRemark with rfl | ⟨keyword, mem, explanation, rfl, -, absent⟩
  · simp
  · simp [bracket_not_mem_keyword keyword mem, absent]

theorem IsApproach.bracket_not_mem {approach : Text} (isApproach : IsApproach approach) :
    '<' ∉ approach := by
  obtain ⟨blanks, remark, rfl, isBlanks, isRemark⟩ := isApproach
  refine fun mem => (List.mem_append.1 mem).elim (fun inBlanks => ?_) isRemark.bracket_not_mem
  exact absurd (isBlanks '<' inBlanks) (by decide)

/-- What follows a remark is found again. -/
theorem behindExplanation_append {remark : Text} (isRemark : IsRemark remark)
    (rest : Text) :
    behindExplanation (remark ++ (token ++ rest)) = token ++ rest := by
  rcases isRemark with rfl | ⟨keyword, mem, explanation, rfl, boundary, absent⟩
  · rfl
  · have ends : Text.wordEnds (explanation ++ (token ++ rest)) = true := by
      have edge := (isWordBoundary_iff mem).1 boundary
      cases explanation with
      | nil => exact edge
      | cons c explanation => exact edge
    have found : (annotations.findSome? fun keyword' =>
        Text.after? keyword' (keyword ++ explanation ++ (token ++ rest))) =
          some (explanation ++ (token ++ rest)) := by
      rw [List.append_assoc]
      revert mem
      simp only [annotations, List.mem_cons, List.not_mem_nil, or_false]
      rintro (rfl | rfl)
      · rw [List.findSome?_cons, Text.after?_append]
      · rfl
    have free : AllOf (fun c => decide (c ≠ '<')) explanation := fun c inside => by
      simpa using fun same : c = '<' => absent (same ▸ inside)
    simp only [behindExplanation, afterAnnotationKeyword?, found, Option.filter_some, ends, if_true]
    exact Text.dropWhile_append_of_stops free (Text.stops_cons.2 (by decide))

/-- What stands in front of a token that is found behind an explanation is a remark. -/
theorem exists_remark {text rest : Text} (found : behindExplanation text = token ++ rest) :
    ∃ remark, text = remark ++ (token ++ rest) ∧ IsRemark remark := by
  rw [behindExplanation] at found
  split at found
  · rename_i behind passed
    simp only [afterAnnotationKeyword?, Option.filter_eq_some_iff,
      List.findSome?_eq_some_iff] at passed
    obtain ⟨⟨_, keyword, _, split, begins, -⟩, ends⟩ := passed
    have mem : keyword ∈ annotations := by simp [split]
    obtain ⟨explanation, rfl, free, -⟩ := Text.dropWhile_eq_iff.1 found
    refine ⟨keyword ++ explanation, by simp [Text.after?_eq_some_iff.1 begins],
      .inr ⟨keyword, mem, explanation, rfl, (isWordBoundary_iff mem).2 ?_, fun inside => ?_⟩⟩
    · cases explanation with
      | nil => exact ends
      | cons c explanation => exact ends
    · simpa using free '<' inside
  · exact ⟨[], found, .inl rfl⟩

theorem IsRemark.stops {remark : Text} (isRemark : IsRemark remark)
    (rest : Text) : Stops Text.isBlank (remark ++ (token ++ rest)) := by
  have solid : ∀ keyword ∈ annotations, IsWord keyword := by decide
  rcases isRemark with rfl | ⟨keyword, mem, explanation, rfl, -, -⟩
  · exact Text.stops_cons.2 (by decide)
  · rw [List.append_assoc]
    exact (solid keyword mem).stops _

/-- From a marker one token at most can be reached. -/
theorem atMarker?_approach {approach : Text} (isApproach : IsApproach approach) (rest : Text) :
    atMarker? (commentMarker ++ (approach ++ (token ++ rest))) = nameAndBody? rest := by
  obtain ⟨blanks, remark, rfl, isBlanks, isRemark⟩ := isApproach
  have start : Text.trimStart (blanks ++ remark ++ (token ++ rest)) =
      remark ++ (token ++ rest) := by
    rw [List.append_assoc]
    exact Text.dropWhile_append_of_stops isBlanks (isRemark.stops rest)
  simp only [atMarker?, Text.after?_append, Option.bind_eq_bind, Option.bind_some, start,
    behindExplanation_append isRemark]

/-- What is found at a marker follows a token that is reached from there. -/
theorem exists_approach {text : Text} {found : Text × Text} (reads : atMarker? text = some found) :
    ∃ approach rest, text = commentMarker ++ (approach ++ (token ++ rest)) ∧
      IsApproach approach ∧ nameAndBody? rest = some found := by
  simp only [atMarker?, Option.bind_eq_bind, Option.bind_eq_some_iff,
    Text.after?_eq_some_iff] at reads
  obtain ⟨afterMarker, rfl, rest, reached, reads⟩ := reads
  obtain ⟨remark, start, isRemark⟩ := exists_remark reached
  obtain ⟨blanks, rfl, isBlanks, -⟩ := Text.dropWhile_eq_iff.1 start
  exact ⟨blanks ++ remark, rest, by simp, ⟨blanks, remark, rfl, isBlanks, isRemark⟩, reads⟩

/-! ## From a token to a name and a body -/

theorem isNameChar_iff {c : Char} : isNameChar c = true ↔ Text.isBlank c = false ∧ c ≠ '>' := by
  simp [isNameChar]

/-- The last closing bracket of a text. -/
theorem upToLastBracket_eq_iff {text closed : Text} (nonempty : closed ≠ []) :
    upToLastBracket text = closed ↔
      ∃ body after, closed = body ++ ['>'] ∧ text = body ++ '>' :: after ∧ '>' ∉ after := by
  rw [upToLastBracket, Text.dropEndWhile_eq_iff]
  constructor
  · rintro ⟨after, rfl, free, stops⟩
    obtain ⟨body, last, rfl⟩ := (List.eq_nil_or_concat' closed).resolve_left nonempty
    have closes : last = '>' := by simpa using stops
    subst closes
    exact ⟨body, after, rfl, by simp, Text.allOf_ne_iff.1 free⟩
  · rintro ⟨body, after, rfl, rfl, absent⟩
    exact ⟨after, by simp, Text.allOf_ne_iff.2 absent, by simp⟩

/-- The last closing bracket does not stand before another one. -/
theorem upToLastBracket_append_bracket (front back : Text) :
    upToLastBracket (front ++ '>' :: back) = front ++ '>' :: upToLastBracket back := by
  obtain ⟨tail, split, free, stops⟩ := Text.dropEndWhile_eq_iff.1 (rfl : upToLastBracket back = _)
  refine Text.dropEndWhile_eq_iff.2 ⟨tail, ?_, free, ?_⟩
  · conv_lhs => rw [split]
    simp
  · cases last : (upToLastBracket back).reverse with
    | nil => simp [last]
    | cons c others =>
        rw [last] at stops
        simpa [last] using stops

/-- What a name stops at also stops it with a closing bracket behind it. -/
theorem stops_append_bracket {body : Text} (ends : Stops isNameChar body) (after : Text) :
    Stops isNameChar (body ++ '>' :: after) := by
  cases body with
  | nil => exact Text.stops_cons.2 (by decide)
  | cons c body => exact ends

/-- The text behind a name up to the last closing bracket of its line. -/
def closedBody (text : Text) : Text :=
  upToLastBracket ((text.dropWhile isNameChar).takeWhile (· ≠ '\n'))

theorem nameAndBody?_eq_some_iff_taken {text : Text} {found : Text × Text} :
    nameAndBody? text = some found ↔
      text.takeWhile isNameChar ≠ [] ∧ closedBody text ≠ [] ∧
        found = (text.takeWhile isNameChar, (closedBody text).dropLast) := by
  simp only [nameAndBody?, closedBody]
  split
  · rename_i none_named
    simp [none_named]
  · rename_i named
    split
    · rename_i unclosed
      exact ⟨by simp, fun ⟨_, closed, _⟩ => absurd unclosed closed⟩
    · rename_i closed
      exact ⟨fun same => ⟨named, closed, (Option.some.inj same).symm⟩,
        fun ⟨_, _, same⟩ => congrArg some same.symm⟩

/-- A name goes on as far as it can, and so does the body behind it, up to a closing
bracket of the same line. -/
theorem nameAndBody?_eq_some_iff {text name body : Text} :
    nameAndBody? text = some (name, body) ↔
      ∃ after, text = name ++ (body ++ '>' :: after) ∧ name ≠ [] ∧ AllOf isNameChar name ∧
        '\n' ∉ body ∧ Stops isNameChar body ∧ '>' ∉ after.takeWhile (· ≠ '\n') := by
  rw [nameAndBody?_eq_some_iff_taken]
  constructor
  · rintro ⟨named, nonempty, found⟩
    obtain ⟨rfl, rfl⟩ := Prod.mk.inj found
    obtain ⟨body, tail, closed_eq, line_eq, absent⟩ := (upToLastBracket_eq_iff nonempty).1 rfl
    have line := Text.allOf_takeWhile (· ≠ '\n') (text.dropWhile isNameChar)
    have next := Text.stops_dropWhile (· ≠ '\n') (text.dropWhile isNameChar)
    have ends := Text.stops_dropWhile isNameChar text
    have split := (List.takeWhile_append_dropWhile (p := isNameChar) (l := text)).symm
    have rest_split :=
      (List.takeWhile_append_dropWhile (p := (· ≠ '\n')) (l := text.dropWhile isNameChar)).symm
    rw [line_eq] at line rest_split
    rw [rest_split] at split ends
    have oneLine := Text.allOf_ne_iff.1 line
    simp only [List.mem_append, List.mem_cons, not_or] at oneLine
    have body_eq : (closedBody text).dropLast = body := by
      rw [closed_eq, List.dropLast_concat]
    rw [body_eq]
    refine ⟨tail ++ (text.dropWhile isNameChar).dropWhile (· ≠ '\n'),
      split.trans (by simp only [List.append_assoc, List.cons_append]), named,
      Text.allOf_takeWhile isNameChar text, oneLine.1, ?_, ?_⟩
    · cases body with
      | nil => simp [Stops]
      | cons c body => simpa using ends
    · rw [Text.takeWhile_append_of_stops (Text.allOf_ne_iff.2 oneLine.2.2) next]
      exact absent
  · rintro ⟨after, rfl, named, all, oneLine, ends, absent⟩
    have stops := stops_append_bracket ends after
    have line_eq : (body ++ '>' :: after).takeWhile (· ≠ '\n') =
        body ++ '>' :: after.takeWhile (· ≠ '\n') := by
      rw [List.takeWhile_append_of_pos (Text.allOf_ne_iff.2 oneLine),
        List.takeWhile_cons_of_pos (by decide)]
    have closed : closedBody (name ++ (body ++ '>' :: after)) = body ++ ['>'] := by
      rw [closedBody, Text.dropWhile_append_of_stops all stops]
      exact (upToLastBracket_eq_iff (by simp)).2 ⟨body, _, rfl, line_eq, absent⟩
    rw [Text.takeWhile_append_of_stops all stops, closed]
    simp [named]

/-- Of all names and bodies that follow a token, those that are taken are the longest. -/
theorem exists_longest {name body : Text} (after : Text) (named : name ≠ [])
    (all : AllOf isNameChar name) (oneLine : '\n' ∉ body) :
    ∃ longest longestBody, nameAndBody? (name ++ (body ++ '>' :: after)) =
      some (longest, longestBody) ∧
      name.length ≤ longest.length ∧ (longest = name → body.length ≤ longestBody.length) := by
  -- the beginning of the body that could belong to the name is moved there
  have split := (List.takeWhile_append_dropWhile (p := isNameChar) (l := body)).symm
  have longer := all.append (Text.allOf_takeWhile isNameChar body)
  have ends := stops_append_bracket (Text.stops_dropWhile isNameChar body) after
  have restLine : AllOf (fun c => decide (c ≠ '\n')) (body.dropWhile isNameChar) :=
    Text.allOf_ne_iff.2 fun mem => oneLine ((List.dropWhile_sublist _).subset mem)
  have text_eq : name ++ (body ++ '>' :: after) =
      (name ++ body.takeWhile isNameChar) ++ (body.dropWhile isNameChar ++ '>' :: after) := by
    conv_lhs => rw [split]
    simp only [List.append_assoc]
  have closed : closedBody (name ++ (body ++ '>' :: after)) =
      body.dropWhile isNameChar ++ '>' :: upToLastBracket (after.takeWhile (· ≠ '\n')) := by
    rw [closedBody, text_eq, Text.dropWhile_append_of_stops longer ends,
      List.takeWhile_append_of_pos restLine, List.takeWhile_cons_of_pos (by decide),
      upToLastBracket_append_bracket]
  have taken : (name ++ (body ++ '>' :: after)).takeWhile isNameChar =
      name ++ body.takeWhile isNameChar := by
    rw [text_eq, Text.takeWhile_append_of_stops longer ends]
  refine ⟨_, _,
    nameAndBody?_eq_some_iff_taken.2 ⟨by simp [taken, named], by simp [closed], rfl⟩, ?_, ?_⟩
  · simp [taken]
  · intro same
    have nothingMoved : body.takeWhile isNameChar = [] := by simpa [taken] using same
    rw [nothingMoved, List.nil_append] at split
    rw [closed, ← split]
    simp

/-! ## From a line to its leftmost marker -/

/-- What scanning finds, it finds at the leftmost marker at which anything is found. -/
theorem exists_of_scan {line : Text} {found : Text × Text} (scanned : scan line = some found) :
    ∃ front back, line = front ++ back ∧ atMarker? back = some found ∧
      ∀ front' back', line = front' ++ back' → atMarker? back' ≠ none →
        front.length ≤ front'.length := by
  induction line with
  | nil => contradiction
  | cons c rest ih =>
      cases here : atMarker? (c :: rest) with
      | some first =>
          rw [scan, here, Option.some_or] at scanned
          exact ⟨[], c :: rest, rfl, here.trans scanned, fun _ _ _ _ => Nat.zero_le _⟩
      | none =>
          rw [scan, here, Option.none_or] at scanned
          obtain ⟨front, back, rfl, there, leftmost⟩ := ih scanned
          refine ⟨c :: front, back, rfl, there, fun front' back' split finds => ?_⟩
          cases front' with
          | nil =>
              rw [List.nil_append] at split
              exact absurd here (split ▸ finds)
          | cons d front' =>
              obtain ⟨-, others⟩ := List.cons.inj split
              exact Nat.succ_le_succ (leftmost front' back' others finds)

theorem scan_append_ne_none (front : Text) {back : Text} (finds : atMarker? back ≠ none) :
    scan (front ++ back) ≠ none := by
  induction front with
  | nil =>
      cases back with
      | nil => exact absurd rfl finds
      | cons c rest =>
          obtain ⟨found, here⟩ := Option.ne_none_iff_exists'.1 finds
          simp [scan, here]
  | cons c front ih => exact fun unread => ih (Option.or_eq_none_iff.1 unread).2

namespace Occurrence

variable {o : Occurrence} {line : Text}

theorem IsIn.isApproach (isIn : o.IsIn line) : IsApproach (o.blanks ++ o.remark) :=
  ⟨o.blanks, o.remark, rfl, isIn.blanks, isIn.remark⟩

/-- At the marker of an occurrence something is found that is at least as long. -/
theorem IsIn.exists_found (isIn : o.IsIn line) :
    ∃ longest longestBody, atMarker? o.fromMarker = some (longest, longestBody) ∧
      o.name.length ≤ longest.length ∧ (longest = o.name → o.body.length ≤ longestBody.length) := by
  rw [fromMarker, atMarker?_approach isIn.isApproach]
  exact exists_longest o.after isIn.named
    (fun c mem => isNameChar_iff.2 (isIn.solid c mem)) isIn.oneLine

/-- What scanning finds is the name and the body of a first occurrence. -/
theorem exists_isFirst {name body : Text} (scanned : scan line = some (name, body)) :
    ∃ o : Occurrence, o.IsFirst line ∧ o.name = name ∧ o.body = body := by
  obtain ⟨front, back, rfl, there, leftmost⟩ := exists_of_scan scanned
  -- what is found at the marker of another occurrence is also what is found here
  have same (other : Occurrence) (isIn : other.IsIn (front ++ back))
      (start : other.before = front) :
      other.name.length ≤ name.length ∧ (other.name = name → other.body.length ≤ body.length) := by
    obtain ⟨longest, longestBody, found, longer, longerBody⟩ := isIn.exists_found
    have marker_eq : back = other.fromMarker :=
      List.append_cancel_left (isIn.line_eq.trans (congrArg (· ++ other.fromMarker) start))
    rw [← marker_eq, there] at found
    cases found
    exact ⟨longer, fun same => longerBody same.symm⟩
  obtain ⟨approach, rest, rfl, ⟨blanks, remark, rfl, isBlanks, isRemark⟩, reads⟩ :=
    exists_approach there
  obtain ⟨after, rfl, named, all, oneLine, -, -⟩ := nameAndBody?_eq_some_iff.1 reads
  refine ⟨⟨front, blanks, remark, name, body, after⟩, ?_, rfl, rfl⟩
  exact
    { isIn := ⟨rfl, isBlanks, isRemark, named, fun c mem => isNameChar_iff.1 (all c mem), oneLine⟩
      leftmost := fun other isIn => by
        obtain ⟨_, _, found, -⟩ := isIn.exists_found
        exact leftmost other.before other.fromMarker isIn.line_eq (by simp [found])
      longestName := fun other isIn start => (same other isIn start).1
      longestBody := fun other isIn start => (same other isIn start).2 }

theorem IsIn.scan_ne_none (isIn : o.IsIn line) : scan line ≠ none := by
  obtain ⟨_, _, found, -⟩ := isIn.exists_found
  rw [isIn.line_eq, Occurrence.line]
  exact scan_append_ne_none o.before (by simp [found])

/-- The token that an approach leads to is the first bracket behind the marker. -/
theorem behindToken_eq_of_fromMarker_eq {other : Occurrence} {others : Text}
    (isIn : o.IsIn line) (otherIn : other.IsIn others) (same : o.fromMarker = other.fromMarker) :
    o.behindToken = other.behindToken := by
  have stops (rest : Text) : Stops (fun c => decide (c ≠ '<')) (token ++ rest) :=
    Text.stops_cons.2 (by decide)
  have free (approach : Text) (isApproach : IsApproach approach) :=
    Text.allOf_ne_iff.2 isApproach.bracket_not_mem
  have behind := congrArg (List.dropWhile fun c => decide (c ≠ '<')) (List.append_cancel_left same)
  rw [Text.dropWhile_append_of_stops (free _ isIn.isApproach) (stops _),
    Text.dropWhile_append_of_stops (free _ otherIn.isApproach) (stops _)] at behind
  exact List.append_cancel_left behind

/-- Scanning finds the name and the body of every first occurrence, so they are fixed. -/
theorem IsFirst.scan_eq (first : o.IsFirst line) : scan line = some (o.name, o.body) := by
  obtain ⟨⟨name, body⟩, scanned⟩ := Option.ne_none_iff_exists'.1 first.isIn.scan_ne_none
  obtain ⟨other, otherFirst, rfl, rfl⟩ := exists_isFirst scanned
  have lines : o.before ++ o.fromMarker = other.before ++ other.fromMarker :=
    first.isIn.line_eq.symm.trans otherFirst.isIn.line_eq
  have starts : o.before.length = other.before.length :=
    Nat.le_antisymm (first.leftmost other otherFirst.isIn) (otherFirst.leftmost o first.isIn)
  obtain ⟨before_eq, marker_eq⟩ := List.append_inj lines starts
  have behind := behindToken_eq_of_fromMarker_eq first.isIn otherFirst.isIn marker_eq
  have names : o.name.length = other.name.length :=
    Nat.le_antisymm (otherFirst.longestName o first.isIn before_eq)
      (first.longestName other otherFirst.isIn before_eq.symm)
  obtain ⟨name_eq, rest_eq⟩ := List.append_inj behind names
  have bodies : o.body.length = other.body.length :=
    Nat.le_antisymm (otherFirst.longestBody o first.isIn before_eq name_eq)
      (first.longestBody other otherFirst.isIn before_eq.symm name_eq.symm)
  rw [scanned, name_eq, (List.append_inj rest_eq bodies).1]

end Occurrence

/-! ## Behind the last bracket -/

theorem mem_takeWhile_append_iff {p : Char → Bool} {front back : Text} {c : Char} :
    c ∈ (front ++ back).takeWhile p ↔
      c ∈ front.takeWhile p ∨ AllOf p front ∧ c ∈ back.takeWhile p := by
  induction front with
  | nil => simp [AllOf]
  | cons d front ih =>
      by_cases passes : p d = true
      · simp_all [AllOf, or_assoc]
      · simp [AllOf, passes]

/-- A character that a text does not end with stands in front of that end. -/
theorem exists_inside_of_append_eq {text tail front after : Text} {c : Char}
    (split : text ++ tail = front ++ c :: after) (absent : c ∉ tail) :
    ∃ inside, after = inside ++ tail ∧ text = front ++ c :: inside := by
  rcases List.append_eq_append_iff.1 split with ⟨between, -, tail_eq⟩ | ⟨between, rfl, rest_eq⟩
  · exact absurd (by simp [tail_eq]) absent
  · cases between with
    | nil =>
        have whole : c :: after = tail := rest_eq
        exact absurd (whole ▸ List.mem_cons_self) absent
    | cons d inside =>
        obtain ⟨rfl, after_eq⟩ := List.cons.inj rest_eq
        exact ⟨inside, after_eq, rfl⟩

/-- What stands behind the last closing bracket of a line changes nothing at a marker. -/
theorem atMarker?_append_of_not_mem {text tail : Text} (absent : '>' ∉ tail) :
    atMarker? (text ++ tail) = atMarker? text := by
  apply Option.ext
  rintro ⟨name, body⟩
  constructor
  · intro reads
    obtain ⟨approach, rest, split, isApproach, reads⟩ := exists_approach reads
    obtain ⟨after, rfl, named, all, oneLine, ends, bodyEnds⟩ := nameAndBody?_eq_some_iff.1 reads
    -- the closing bracket does not stand in the tail
    obtain ⟨inside, after_eq, text_eq⟩ : ∃ inside, after = inside ++ tail ∧
        text = commentMarker ++ (approach ++ (token ++ (name ++ (body ++ '>' :: inside)))) := by
      have parts : text ++ tail =
          (commentMarker ++ (approach ++ (token ++ (name ++ body)))) ++ '>' :: after :=
        split.trans (by simp only [List.append_assoc])
      obtain ⟨inside, after_eq, text_eq⟩ := exists_inside_of_append_eq parts absent
      exact ⟨inside, after_eq, by simpa using text_eq⟩
    rw [text_eq, atMarker?_approach isApproach]
    refine nameAndBody?_eq_some_iff.2
      ⟨inside, rfl, named, all, oneLine, ends, fun mem => bodyEnds ?_⟩
    rw [after_eq]
    exact mem_takeWhile_append_iff.2 (.inl mem)
  · intro reads
    obtain ⟨approach, rest, rfl, isApproach, reads⟩ := exists_approach reads
    obtain ⟨after, rfl, named, all, oneLine, ends, bodyEnds⟩ := nameAndBody?_eq_some_iff.1 reads
    have text_eq :
        commentMarker ++ (approach ++ (token ++ (name ++ (body ++ '>' :: after)))) ++ tail =
        commentMarker ++ (approach ++ (token ++ (name ++ (body ++ '>' :: (after ++ tail))))) := by
      simp only [List.append_assoc, List.cons_append]
    rw [text_eq, atMarker?_approach isApproach]
    refine nameAndBody?_eq_some_iff.2 ⟨after ++ tail, rfl, named, all, oneLine, ends, fun mem => ?_⟩
    rcases mem_takeWhile_append_iff.1 mem with inside | ⟨-, behind⟩
    · exact bodyEnds inside
    · exact absent ((List.takeWhile_sublist _).subset behind)

theorem scan_append_of_not_mem {text tail : Text} (absent : '>' ∉ tail) :
    scan (text ++ tail) = scan text := by
  induction text with
  | nil =>
      induction tail with
      | nil => rfl
      | cons c tail ih =>
          have nothing : atMarker? ([] ++ c :: tail) = atMarker? [] :=
            atMarker?_append_of_not_mem absent
          have others := ih fun mem => absent (by simp [mem])
          rw [List.nil_append] at nothing others
          simp only [List.nil_append, scan, nothing, others]
          rfl
  | cons c text ih =>
      have here : atMarker? (c :: text ++ tail) = atMarker? (c :: text) :=
        atMarker?_append_of_not_mem absent
      rw [List.cons_append] at here
      simp only [List.cons_append, scan, here, ih]

/-- What stands behind the last closing bracket of a line is not looked at. -/
theorem scan_upToLastBracket (line : Text) : scan (upToLastBracket line) = scan line := by
  obtain ⟨tail, split, free, -⟩ := Text.dropEndWhile_eq_iff.1 (rfl : upToLastBracket line = _)
  conv_rhs => rw [split]
  exact (scan_append_of_not_mem (Text.allOf_ne_iff.1 free)).symm

/-! ## What a directive says -/

theorem interpret_replaceLineName (body : Text) :
    interpret replaceLineName body =
      match Body.read? body with
      | some directive => .directive directive
      | none => .malformed replaceLineName (Text.trim body) := rfl

/-- A name and a body mean one thing. -/
theorem means_iff {name body : Text} {reading : Reading} :
    Means name body reading ↔ interpret name body = reading := by
  constructor
  · intro means
    cases means with
    | removeLine => rfl
    | removeFile => rfl
    | removeComment => rfl
    | replaceLine written =>
        rw [interpret_replaceLineName, Body.read?_eq_some_iff.2 ⟨_, _, _, rfl, written⟩]
    | malformed unwritten =>
        have unread : Body.read? body = none := by
          refine Option.eq_none_iff_forall_not_mem.2 fun directive reads => ?_
          obtain ⟨_, _, _, -, written⟩ := Body.read?_eq_some_iff.1 reads
          exact unwritten _ _ _ written
        rw [interpret_replaceLineName, unread]
    | unknown _ strange =>
        simp only [List.mem_cons, List.not_mem_nil, or_false, not_or] at strange
        obtain ⟨notLine, notFile, notComment, notReplace⟩ := strange
        rw [interpret, if_neg notLine, if_neg notFile, if_neg notComment, if_neg notReplace]
  · rintro rfl
    rw [interpret]
    split_ifs with isLine isFile isComment isReplace
    · exact isLine ▸ .removeLine body
    · exact isFile ▸ .removeFile body
    · exact isComment ▸ .removeComment body
    · subst isReplace
      cases reads : Body.read? body with
      | some directive =>
          obtain ⟨_, _, _, rfl, written⟩ := Body.read?_eq_some_iff.1 reads
          exact .replaceLine written
      | none =>
          refine .malformed fun _ _ _ written => ?_
          rw [Body.read?_eq_some_iff.2 ⟨_, _, _, rfl, written⟩] at reads
          cases reads
    · exact .unknown body (by simp [isLine, isFile, isComment, isReplace])

theorem interpret_ne_nothing (name body : Text) : interpret name body ≠ .nothing := by
  intro nothing
  cases means_iff.2 nothing

/-- A line that is not read as nothing is read as what its first occurrence says. -/
theorem exists_isFirst_of_read {line : Text} {reading : Reading} (reads : read line = reading)
    (something : reading ≠ .nothing) :
    ∃ o : Occurrence, o.IsFirst line ∧ Means o.name o.body reading := by
  rw [read, scan_upToLastBracket] at reads
  cases scanned : scan line with
  | none => exact absurd (by rw [← reads, scanned]) something
  | some found =>
      obtain ⟨o, first, name_eq, body_eq⟩ := Occurrence.exists_isFirst scanned
      refine ⟨o, first, means_iff.2 ?_⟩
      rw [name_eq, body_eq, ← reads, scanned]

/-- A line is read as something else than nothing exactly when a directive occurs in it,
and then as what the name and the body of its first occurrence say. -/
theorem read_exact (line : Text) :
    (read line ≠ .nothing ↔ ∃ o : Occurrence, o.IsIn line) ∧
      ((∃ o : Occurrence, o.IsIn line) → ∃ o : Occurrence, o.IsFirst line) ∧
        ∀ o : Occurrence, o.IsFirst line →
          ∀ reading, Means o.name o.body reading ↔ read line = reading := by
  have exists_of_occurs {o : Occurrence} (isIn : o.IsIn line) :
      ∃ first : Occurrence, first.IsFirst line := by
    obtain ⟨⟨name, body⟩, scanned⟩ := Option.ne_none_iff_exists'.1 isIn.scan_ne_none
    obtain ⟨first, isFirst, -⟩ := Occurrence.exists_isFirst scanned
    exact ⟨first, isFirst⟩
  refine ⟨⟨fun reads => ?_, ?_⟩, fun ⟨o, isIn⟩ => exists_of_occurs isIn, fun o first reading => ?_⟩
  · cases scanned : scan line with
    | none => exact absurd (by rw [read, scan_upToLastBracket, scanned]) reads
    | some found =>
        obtain ⟨first, isFirst, -⟩ := Occurrence.exists_isFirst scanned
        exact ⟨first, isFirst.isIn⟩
  · rintro ⟨o, isIn⟩
    obtain ⟨first, isFirst⟩ := exists_of_occurs isIn
    rw [read, scan_upToLastBracket, isFirst.scan_eq]
    exact interpret_ne_nothing first.name first.body
  · rw [read, scan_upToLastBracket, first.scan_eq]
    exact means_iff

/-- Three markers, of which the second has an annotation and leads to the token that the
third leads to as well, and three closing brackets behind the name. -/
def crowdedLine : Text :=
  "a // b // @ts-ignore 1 > 0 // <dler-remove-line now> or <dler-x> c".toList

theorem read_exact_crowded :
    (∃ o : Occurrence, o.IsIn crowdedLine) ∧
      ∃ o : Occurrence, o.IsFirst crowdedLine ∧ Means o.name o.body (.directive .removeLine) := by
  have named : AllOf isNameChar removeLineName := by decide
  have occurs : ∃ o : Occurrence, o.IsIn crowdedLine := by
    refine ⟨⟨"a // b // @ts-ignore 1 > 0 ".toList, [' '], [], removeLineName, " now".toList,
      " or <dler-x> c".toList⟩, ?_, Text.isGap_space.blanks, .inl rfl, by decide,
      fun c mem => isNameChar_iff.1 (named c mem), by decide⟩
    decide +kernel
  obtain ⟨-, first, means⟩ := read_exact crowdedLine
  obtain ⟨o, isFirst⟩ := first occurs
  exact ⟨occurs, o, isFirst, (means o isFirst _).2 (by decide +kernel)⟩

end DistDirectives.Directive
