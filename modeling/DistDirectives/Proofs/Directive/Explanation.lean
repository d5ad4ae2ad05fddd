import DistDirectives.Proofs.Directive.Printing

/-!
# Explanations of annotations

An annotation that suppresses a type error may stand between a marker and a directive,
with an explanation. It should make no difference to what the line is read as. The way
from a marker to the token ends at the first opening bracket, though, so an explanation
that holds one (a type with parameters, say) hides the token from the marker in front of
the annotation, unless the explanation has a marker of its own that leads on to the token.

Which markers lead on to a token is told from the text in front of it alone, and a token
that one of them leads to is the same for all of them (`scan_append_token`).
`read_annotated_iff` gives the explanations that make no difference, and what a line with
any other explanation is read as.
-/

namespace DistDirectives.Directive

/-! ## Markers that lead on -/

/-- A token at the end of the text is reached from one of its markers. -/
def LeadsOn (text : Text) : Prop :=
  ∃ before approach, text = before ++ (commentMarker ++ approach) ∧ IsApproach approach

theorem not_leadsOn_nil : ¬LeadsOn [] := by
  rintro ⟨before, approach, split, -⟩
  simp [commentMarker] at split

theorem LeadsOn.append_left {text : Text} (leads : LeadsOn text) (front : Text) :
    LeadsOn (front ++ text) := by
  obtain ⟨before, approach, rfl, isApproach⟩ := leads
  exact ⟨front ++ before, approach, by simp, isApproach⟩

theorem leadsOn_cons_iff {c : Char} {text : Text} :
    LeadsOn (c :: text) ↔
      (∃ approach, c :: text = commentMarker ++ approach ∧ IsApproach approach) ∨ LeadsOn text := by
  constructor
  · rintro ⟨before, approach, split, isApproach⟩
    cases before with
    | nil => exact .inl ⟨approach, split, isApproach⟩
    | cons d before =>
        obtain ⟨-, text_eq⟩ := List.cons.inj split
        exact .inr ⟨before, approach, text_eq, isApproach⟩
  · rintro (⟨approach, split, isApproach⟩ | leads)
    · exact ⟨[], approach, split, isApproach⟩
    · exact leads.append_left [c]

/-! ## The first token of a line -/

/-- Whatever is found at a marker in front of the first token of a line is found behind
that token. -/
theorem atMarker?_append_token {text : Text} (absent : ¬token <:+: text) (rest : Text)
    (found : Text × Text) :
    atMarker? (text ++ ' ' :: (token ++ rest)) = some found ↔
      (∃ approach, text ++ [' '] = commentMarker ++ approach ∧ IsApproach approach) ∧
        nameAndBody? rest = some found := by
  have regrouped : text ++ ' ' :: (token ++ rest) = (text ++ [' ']) ++ (token ++ rest) := by simp
  rw [regrouped]
  constructor
  · intro reads
    obtain ⟨approach, rest', split, isApproach, reads⟩ := exists_approach reads
    rw [← List.append_assoc commentMarker] at split
    rcases List.append_eq_append_iff.1 split with ⟨more, front_eq, rest_eq⟩ |
      ⟨more, text_eq, rest_eq⟩
    · cases more with
      | nil =>
          rw [List.append_nil] at front_eq
          rw [← List.append_cancel_left rest_eq] at reads
          exact ⟨⟨approach, front_eq.symm, isApproach⟩, reads⟩
      | cons c more =>
          have bracket : c = '<' := (List.cons.inj rest_eq).1.symm
          have inside : '<' ∈ commentMarker ++ approach := by simp [front_eq, bracket]
          exact ((List.mem_append.1 inside).elim (by decide) isApproach.bracket_not_mem).elim
    · obtain rfl := eq_nil_of_token_append_blank absent text_eq rest_eq
      rw [List.append_nil] at text_eq
      rw [List.append_cancel_left rest_eq] at reads
      exact ⟨⟨approach, text_eq, isApproach⟩, reads⟩
  · rintro ⟨⟨approach, text_eq, isApproach⟩, reads⟩
    rw [text_eq, List.append_assoc, atMarker?_approach isApproach, reads]

/-- Whether a marker in front of the first token leads on to it is told from the text in
front of the token. Then what the token says comes first, and else it is as if the line
began with the token. -/
theorem scan_append_token {text : Text} (absent : ¬token <:+: text) (rest : Text) :
    (LeadsOn (text ++ [' ']) →
      scan (text ++ ' ' :: (token ++ rest)) = (nameAndBody? rest).or (scan (token ++ rest))) ∧
      (¬LeadsOn (text ++ [' ']) →
        scan (text ++ ' ' :: (token ++ rest)) = scan (token ++ rest)) := by
  induction text with
  | nil =>
      have silent : ¬LeadsOn ([] ++ [' ']) := by
        rw [List.nil_append, leadsOn_cons_iff]
        rintro (⟨approach, split, -⟩ | leads)
        · exact absurd (List.cons.inj split).1 (by decide)
        · exact not_leadsOn_nil leads
      exact ⟨fun leads => absurd leads silent, fun _ => rfl⟩
  | cons c text ih =>
      obtain ⟨led, unled⟩ := ih fun mention =>
        absent (mention.trans (List.suffix_cons c text).isInfix)
      have here := atMarker?_append_token absent rest
      simp only [List.cons_append, scan, leadsOn_cons_iff] at here ⊢
      by_cases atOnce : ∃ approach, c :: (text ++ [' ']) = commentMarker ++ approach ∧
        IsApproach approach
      · have first : atMarker? (c :: (text ++ ' ' :: (token ++ rest))) = nameAndBody? rest :=
          Option.ext fun found => by simp [here, atOnce]
        refine ⟨fun _ => ?_, fun none => absurd (.inl atOnce) none⟩
        by_cases leads : LeadsOn (text ++ [' '])
        · rw [first, led leads]
          cases nameAndBody? rest <;> rfl
        · rw [first, unled leads]
      · have first : atMarker? (c :: (text ++ ' ' :: (token ++ rest))) = none :=
          Option.eq_none_iff_forall_not_mem.2 fun found reads => atOnce ((here found).1 reads).1
        refine ⟨fun leads => ?_, fun none => ?_⟩
        · rw [first, Option.none_or, led (leads.resolve_left atOnce)]
        · rw [first, Option.none_or, unled fun leads => none (.inr leads)]

/-! ## Lines with an annotation -/

/-- A line comment with a directive. -/
def commented (directive : Text) : Text := commentMarker ++ ' ' :: directive

/-- What stands in front of the explanation of an annotation. -/
def announced (keyword : Text) : Text := commentMarker ++ ' ' :: (keyword ++ [' '])

/-- A line comment with an annotation, its explanation and a directive. -/
def annotated (keyword explanation directive : Text) : Text :=
  announced keyword ++ (explanation ++ ' ' :: directive)

/-- An explanation that does not hide a directive behind it: it has no opening bracket, or
a marker of its own leads on. -/
def IsTransparent (explanation : Text) : Prop :=
  '<' ∉ explanation ∨ LeadsOn (explanation ++ [' '])

variable {keyword explanation : Text}

theorem bracket_not_mem_announced (mem : keyword ∈ annotations) : '<' ∉ announced keyword := by
  simp [announced, commentMarker, bracket_not_mem_keyword keyword mem]

/-- What leads on from a marker of the announcement runs through the whole explanation. -/
theorem leadsOn_announced_iff (mem : keyword ∈ annotations) :
    LeadsOn (announced keyword ++ explanation ++ [' ']) ↔ IsTransparent explanation := by
  rw [List.append_assoc]
  constructor
  · rintro ⟨before, approach, split, isApproach⟩
    rcases List.append_eq_append_iff.1 split with ⟨front, -, explanation_eq⟩ | ⟨more, -, marker_eq⟩
    · exact .inr ⟨front, approach, explanation_eq, isApproach⟩
    · refine .inl fun bracket => ?_
      have inside : '<' ∈ commentMarker ++ approach := by simp [marker_eq, bracket]
      exact (List.mem_append.1 inside).elim (by decide) isApproach.bracket_not_mem
  · rintro (absent | leads)
    · have blank : Text.isWordChar ' ' = false := by decide +kernel
      have boundary : IsWordBoundary keyword (' ' :: (explanation ++ [' ']) ++ token) :=
        (isWordBoundary_iff mem).2 (by simp [Text.wordEnds, blank])
      refine ⟨[], [' '] ++ (keyword ++ ' ' :: (explanation ++ [' '])), by simp [announced],
        [' '], _, rfl, Text.isGap_space.blanks,
        .inr ⟨keyword, mem, _, rfl, boundary, by simp [absent]⟩⟩
    · exact leads.append_left (announced keyword)

theorem token_infix_of_append {front text : Text} (unbracketed : '<' ∉ front)
    (mention : token <:+: front ++ text) : token <:+: text := by
  obtain ⟨before, after, split⟩ := mention
  rw [List.append_assoc] at split
  rcases List.append_eq_append_iff.1 split with ⟨more, front_eq, rest_eq⟩ | ⟨inner, -, text_eq⟩
  · cases more with
    | nil => exact ⟨[], after, rest_eq⟩
    | cons c more =>
        have bracket : c = '<' := (List.cons.inj rest_eq).1.symm
        exact absurd (by simp [front_eq, bracket]) unbracketed
  · exact ⟨inner, after, by simp [text_eq]⟩

theorem scan_annotated (mem : keyword ∈ annotations) (absent : ¬token <:+: explanation)
    (rest : Text) :
    (IsTransparent explanation →
      scan (annotated keyword explanation (token ++ rest)) = scan (commented (token ++ rest))) ∧
      (¬IsTransparent explanation →
        scan (annotated keyword explanation (token ++ rest)) = scan (token ++ rest)) := by
  have unmentioned : ¬token <:+: announced keyword ++ explanation := fun mention =>
    absent (token_infix_of_append (bracket_not_mem_announced mem) mention)
  have leadsAtOnce : LeadsOn (commentMarker ++ [' ']) :=
    ⟨[], [' '], rfl, [' '], [], rfl, Text.isGap_space.blanks, .inl rfl⟩
  have bare : ¬token <:+: commentMarker :=
    fun mention => absurd (mentioned_iff.2 mention) (by decide)
  obtain ⟨led, unled⟩ := scan_append_token unmentioned rest
  rw [leadsOn_announced_iff mem] at led unled
  rw [annotated, ← List.append_assoc, commented, (scan_append_token bare rest).1 leadsAtOnce]
  exact ⟨led, unled⟩

theorem read_eq_of_scan_eq {line other : Text} (same : scan line = scan other) :
    read line = read other := by
  rw [read, read, scan_upToLastBracket, scan_upToLastBracket, same]

/-- An annotation in front of a directive makes no difference, whatever the directive, for
the explanations that do not hide it. With any other explanation the line is read like the
directive without a marker in front of it. -/
theorem read_annotated_iff {keyword explanation : Text} (mem : keyword ∈ annotations)
    (absent : ¬token <:+: explanation) :
    ((∀ directive, token <+: directive →
      read (annotated keyword explanation directive) = read (commented directive)) ↔
        IsTransparent explanation) ∧
      (¬IsTransparent explanation → ∀ directive, token <+: directive →
        read (annotated keyword explanation directive) = read directive) := by
  have hidden (hides : ¬IsTransparent explanation) (directive : Text)
      (begins : token <+: directive) :
      read (annotated keyword explanation directive) = read directive := by
    obtain ⟨rest, rfl⟩ := begins
    exact read_eq_of_scan_eq ((scan_annotated mem absent rest).2 hides)
  refine ⟨⟨fun same => ?_, fun transparent directive begins => ?_⟩, hidden⟩
  · by_contra hides
    have begins : token <+: "<dler-remove-line>".toList := ⟨"remove-line>".toList, rfl⟩
    have differ :
        read "<dler-remove-line>".toList ≠ read (commented "<dler-remove-line>".toList) := by
      decide +kernel
    exact differ ((hidden hides _ begins).symm.trans (same _ begins))
  · obtain ⟨rest, rfl⟩ := begins
    exact read_eq_of_scan_eq ((scan_annotated mem absent rest).1 transparent)

/-- A bracket in the explanation, and behind it a marker that leads on. -/
theorem read_annotated_bracket_marker :
    "@ts-ignore".toList ∈ annotations ∧ ¬token <:+: "Array<T> //".toList ∧
      '<' ∈ "Array<T> //".toList ∧ ∀ directive, token <+: directive →
        read (annotated "@ts-ignore".toList "Array<T> //".toList directive) =
          read (commented directive) := by
  have mem : "@ts-ignore".toList ∈ annotations := by decide
  have absent : ¬token <:+: "Array<T> //".toList := fun mention =>
    absurd (mentioned_iff.2 mention) (by decide)
  have transparent : IsTransparent "Array<T> //".toList :=
    .inr ⟨"Array<T> ".toList, [' '], rfl, [' '], [], rfl, Text.isGap_space.blanks, .inl rfl⟩
  exact ⟨mem, absent, by decide, (read_annotated_iff mem absent).1.2 transparent⟩

/-- An explanation that names a type with a parameter hides the directive behind it. -/
theorem annotation_not_ignored :
    ¬∀ keyword ∈ annotations, ∀ explanation directive : Text, ¬token <:+: explanation →
      '\n' ∉ explanation → token <+: directive →
        read (annotated keyword explanation directive) = read (commented directive) := by
  intro ignored
  have absent : ¬token <:+: "Type 'Array<string>'".toList := fun mention =>
    absurd (mentioned_iff.2 mention) (by decide)
  have same := ignored "@ts-expect-error".toList (by decide) "Type 'Array<string>'".toList
    "<dler-remove-line>".toList absent (by decide) ⟨"remove-line>".toList, rfl⟩
  exact absurd same (by decide +kernel)

end DistDirectives.Directive
