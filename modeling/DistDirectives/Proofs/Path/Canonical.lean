import DistDirectives.Proofs.Path.Segments
import DistDirectives.Proofs.Text.Blank
import DistDirectives.Text.Utf8

/-!
# The canonical spelling of paths

A canonical text has no backslash, no empty segment and no segment that is a single dot, and no
slash at its end unless it is that slash. These are the texts that reading leaves alone
(`clean_eq_self_iff`).

Parents, and what is left behind a leading path, are cut out of a canonical text as they are: both
sides of a slash are canonical again, so it makes no difference that they are read once more. So
whatever a path is made from, and however it is extended and cut afterwards, its text is canonical
(`obtained_canonical`).
-/

namespace DistDirectives.Path

/-! ## Canonical texts -/

/-- A text without the slash that makes it absolute. -/
def body (text : Text) : Text := (Text.after? ['/'] text).getD text

/-- The canonical spelling of a path, said without reading the text. -/
structure IsCanonical (text : Text) : Prop where
  no_backslash : '\\' ∉ text
  no_idle_segment : body text ≠ [] →
    ∀ segment ∈ Text.splitOn '/' (body text), segment ≠ [] ∧ segment ≠ ['.']
  no_slash_at_end : text.getLast? = some '/' → text = ['/']

variable {text front rest : Text}

@[simp]
theorem body_slash_cons (rest : Text) : body ('/' :: rest) = rest := by
  simp [body, Text.after?]

theorem body_eq_self (relative : text.head? ≠ some '/') : body text = text := by
  cases text with
  | nil => rfl
  | cons c rest =>
      have differs : ¬ '/' = c := fun same => relative (by simp [← same])
      simp [body, Text.after?, differs]

theorem body_append (nonempty : front ≠ []) (rest : Text) :
    body (front ++ rest) = body front ++ rest := by
  cases front with
  | nil => exact absurd rfl nonempty
  | cons c front =>
      by_cases slash : c = '/'
      · rw [slash, List.cons_append, body_slash_cons, body_slash_cons]
      · rw [body_eq_self (by simpa using slash), body_eq_self (by simpa using slash)]

theorem isCanonical_nil : IsCanonical [] := ⟨by simp, by simp [body, Text.after?], by simp⟩

theorem isCanonical_slash : IsCanonical ['/'] := ⟨by simp, by simp, by simp⟩

/-- The text of a path is canonical. -/
theorem isCanonical_text (path : Path) : IsCanonical path.text := by
  have proper : ∀ segment ∈ path.segments, IsSegment segment :=
    fun _ mem => isSegment_of_mem_segments mem
  have inner : body path.text = Text.joinWith '/' path.segments := by
    rw [text_eq_spell path]
    cases path.isAbsolute with
    | true => exact body_slash_cons _
    | false => exact body_eq_self (head?_joinWith_ne_slash proper)
  refine ⟨backslash_not_mem_text path, fun nonempty segment mem => ?_, fun slash => ?_⟩
  · rw [inner] at nonempty mem
    have some : path.segments ≠ [] := by
      intro none_left
      rw [none_left] at nonempty
      exact nonempty rfl
    rw [Text.splitOn_joinWith some fun piece mem => (proper piece mem).no_slash] at mem
    exact ⟨(proper segment mem).ne_nil, (proper segment mem).ne_dot⟩
  · obtain ⟨absolute, none_left⟩ := segments_eq_nil_of_getLast? slash
    rw [text_eq_spell path, absolute, none_left]
    rfl

/-- Reading leaves alone the canonical texts, and no others. -/
theorem clean_eq_self_iff : clean text = text ↔ IsCanonical text := by
  constructor
  · intro same
    exact isCanonical_text ⟨text, same⟩
  · intro canonical
    have joined : Text.joinWith '/' ((Text.splitOn '/' (body text)).filter keeps) = body text := by
      by_cases empty : body text = []
      · rw [empty]
        rfl
      · have kept : (Text.splitOn '/' (body text)).filter keeps = Text.splitOn '/' (body text) :=
          List.filter_eq_self.2 fun segment mem =>
            keeps_iff.2 (canonical.no_idle_segment empty segment mem)
        rw [kept, Text.joinWith_splitOn]
    rw [clean, slashed_eq_self canonical.no_backslash]
    by_cases absolute : text.head? = some '/'
    · obtain ⟨rest, rfl⟩ := List.head?_eq_some_iff.1 absolute
      rw [body_slash_cons] at joined
      simp only [List.head?_cons, BEq.rfl, spell, if_true, Text.splitOn]
      rw [List.filter_cons_of_neg (by decide), joined]
    · rw [body_eq_self absolute] at joined
      simp only [spell]
      rw [if_neg (by simpa using absolute), joined]

/-! ## Both sides of a slash -/

namespace IsCanonical

/-- What stands behind a slash is canonical. -/
theorem behind (canonical : IsCanonical (front ++ '/' :: rest)) : IsCanonical rest := by
  -- the pieces behind the slash are among the pieces of the whole
  have pieces : body (front ++ '/' :: rest) ≠ [] →
      ∀ segment ∈ Text.splitOn '/' rest, segment ≠ [] ∧ segment ≠ ['.'] := by
    intro nonempty segment mem
    apply canonical.no_idle_segment nonempty segment
    by_cases first : front = []
    · rwa [first, List.nil_append, body_slash_cons]
    · rw [body_append first, Text.splitOn_append_separator]
      exact List.mem_append_right _ mem
  have relative : rest.head? ≠ some '/' := by
    intro slash
    obtain ⟨tail, rfl⟩ := List.head?_eq_some_iff.1 slash
    have nonempty : body (front ++ '/' :: '/' :: tail) ≠ [] := by
      by_cases first : front = []
      · simp [first]
      · simp [body_append first]
    exact (pieces nonempty [] (by simp [Text.splitOn])).1 rfl
  refine ⟨fun mem => canonical.no_backslash (by simp [mem]), fun nonempty => ?_, fun slash => ?_⟩
  · rw [body_eq_self relative] at nonempty ⊢
    apply pieces
    by_cases first : front = []
    · simpa [first] using nonempty
    · simp [body_append first]
  · have some : rest ≠ [] := by
      rintro rfl
      simp at slash
    have ending : (front ++ '/' :: rest).getLast? = Option.some '/' := by
      rw [List.getLast?_append, List.getLast?_cons_of_ne_nil some, slash]
      rfl
    have length_eq := congrArg List.length (canonical.no_slash_at_end ending)
    simp only [List.length_append, List.length_cons, List.length_nil] at length_eq
    exact absurd (List.length_eq_zero_iff.1 (by omega)) some

/-- What stands before a slash is canonical. -/
theorem before (canonical : IsCanonical (front ++ '/' :: rest)) : IsCanonical front := by
  by_cases first : front = []
  · exact first ▸ isCanonical_nil
  have nonempty : body (front ++ '/' :: rest) ≠ [] := by simp [body_append first]
  have pieces : ∀ segment ∈ Text.splitOn '/' (body front), segment ≠ [] ∧ segment ≠ ['.'] := by
    intro segment mem
    apply canonical.no_idle_segment nonempty segment
    rw [body_append first, Text.splitOn_append_separator]
    exact List.mem_append_left _ mem
  refine ⟨fun mem => canonical.no_backslash (by simp [mem]), fun _ => pieces, fun slash => ?_⟩
  obtain ⟨stem, rfl⟩ := List.getLast?_eq_some_iff.1 slash
  by_cases none_left : stem = []
  · rw [none_left, List.nil_append]
  · -- behind the last slash there would be an empty piece
    rw [body_append none_left, Text.splitOn_append_separator] at pieces
    exact absurd rfl (pieces [] (by simp [Text.splitOn])).1

end IsCanonical

/-! ## Cutting -/

/-- The parent that is cut out of a text: what stands before its last slash, or that slash if
nothing stands before it. -/
def cutParent? (text : Text) : Option Text :=
  match Text.dropEndWhile (· ≠ '/') text with
  | [] => none
  | [_] => if text.length > 1 then some ['/'] else none
  | c :: d :: more => some (c :: d :: more).dropLast

/-- What is left of a text behind a leading text, when a slash stands between them. The leading
text is read as a path; the text itself is not read. -/
def cutLead? (lead text : Text) : Option Text :=
  let lead := clean lead
  if lead.isEmpty then some text
  else if text = lead then some []
  else
    (Text.after? lead text).bind fun rest =>
      if lead.getLast? = some '/' then some rest else Text.after? ['/'] rest

variable {cut lead : Text}

/-- Without the characters behind its last slash, a text is empty or ends with that slash. -/
theorem upToSlash_cases (text : Text) :
    Text.dropEndWhile (· ≠ '/') text = [] ∨
      ∃ front name, Text.dropEndWhile (· ≠ '/') text = front ++ ['/'] ∧
        text = front ++ '/' :: name := by
  obtain ⟨name, split, -, stops⟩ :=
    Text.dropEndWhile_eq_iff.1 (rfl : Text.dropEndWhile (· ≠ '/') text = _)
  rcases List.eq_nil_or_concat (Text.dropEndWhile (· ≠ '/') text) with none_left |
    ⟨front, last, dropped⟩
  · exact .inl none_left
  · rw [List.concat_eq_append] at dropped
    rw [dropped] at split stops
    have slash : last = '/' := by simpa using stops
    subst slash
    rw [List.append_assoc] at split
    exact .inr ⟨front, name, dropped, split⟩

/-- What is cut out as a parent is the top of the disk, or stands before a slash. -/
theorem cutParent?_cases (found : cutParent? text = some cut) :
    cut = ['/'] ∨ ∃ name, text = cut ++ '/' :: name := by
  rw [cutParent?] at found
  rcases upToSlash_cases text with none_left | ⟨front, name, dropped, split⟩
  · rw [none_left] at found
    exact absurd found (by simp)
  · rw [dropped] at found
    cases front with
    | nil =>
        simp only [List.nil_append, Option.ite_none_right_eq_some, Option.some.injEq] at found
        exact .inl found.2.symm
    | cons c front =>
        have cut_eq : c :: front = cut := by
          cases front <;> simpa [List.dropLast_cons_of_ne_nil] using found
        exact .inr ⟨name, cut_eq ▸ split⟩

/-- What is left behind a leading text is the whole text, nothing, or stands behind a slash. -/
theorem cutLead?_cases (found : cutLead? lead text = some cut) :
    cut = text ∨ cut = [] ∨ ∃ front, text = front ++ '/' :: cut := by
  rw [cutLead?] at found
  split at found
  · exact .inl (Option.some.inj found).symm
  split at found
  · exact .inr (.inl (Option.some.inj found).symm)
  simp only [Option.bind_eq_some_iff, Text.after?_eq_some_iff] at found
  obtain ⟨rest, split, rest_eq⟩ := found
  split at rest_eq
  · rename_i slash
    obtain ⟨stem, lead_eq⟩ := List.getLast?_eq_some_iff.1 slash
    have same : rest = cut := Option.some.inj rest_eq
    exact .inr (.inr ⟨stem, by rw [split, lead_eq, same, List.append_assoc]; rfl⟩)
  · rw [Text.after?_eq_some_iff] at rest_eq
    exact .inr (.inr ⟨clean lead, by rw [split, rest_eq]; rfl⟩)

theorem IsCanonical.cutParent? (canonical : IsCanonical text) (found : cutParent? text = some cut) :
    IsCanonical cut := by
  rcases cutParent?_cases found with rfl | ⟨name, rfl⟩
  · exact isCanonical_slash
  · exact canonical.before

theorem IsCanonical.cutLead? (canonical : IsCanonical text)
    (found : cutLead? lead text = some cut) :
    IsCanonical cut := by
  rcases cutLead?_cases found with rfl | rfl | ⟨front, rfl⟩
  · exact canonical
  · exact isCanonical_nil
  · exact canonical.behind

/-- Texts that are read once more are the texts themselves, if they are canonical. -/
theorem map_clean_eq_self {found : Option Text}
    (canonical : ∀ cut, found = some cut → IsCanonical cut) :
    found.map clean = found := by
  cases found with
  | none => rfl
  | some cut => rw [Option.map_some, clean_eq_self_iff.2 (canonical cut rfl)]

/-- A parent is cut out as it is. -/
theorem text_parent? (path : Path) : path.parent?.map (·.text) = cutParent? path.text := by
  have read : path.parent?.map (·.text) = (cutParent? path.text).map clean := by
    rw [parent?, cutParent?, upToLastSlash]
    cases Text.dropEndWhile (· ≠ '/') path.text with
    | nil => rfl
    | cons c front =>
        cases front with
        | nil => by_cases long : path.text.length > 1 <;> simp [long]
        | cons d more => rfl
  rw [read, map_clean_eq_self fun _ => (isCanonical_text path).cutParent?]

/-- What is left behind a leading path is cut out as it is. -/
theorem text_strip? (path : Path) (lead : Text) :
    (path.strip? lead).map (·.text) = cutLead? lead path.text := by
  have read : (path.strip? lead).map (·.text) = (cutLead? lead path.text).map clean := by
    have empty_iff : (ofText lead).isEmpty = true ↔ (clean lead).isEmpty = true := Iff.rfl
    have same_iff : path = ofText lead ↔ path.text = clean lead :=
      ⟨fun same => congrArg (·.text) same, fun same => ext_text same⟩
    have slash_iff : (ofText lead).text.getLast? = some '/' ↔
        (clean lead).getLast? = some '/' := Iff.rfl
    rw [strip?, cutLead?]
    by_cases none_given : (clean lead).isEmpty = true
    · rw [if_pos none_given, if_pos (empty_iff.2 none_given), Option.map_some, Option.map_some,
        path.clean_text]
    rw [if_neg none_given, if_neg (empty_iff.not.2 none_given)]
    by_cases same : path.text = clean lead
    · rw [if_pos same, if_pos (same_iff.2 same)]
      rfl
    rw [if_neg same, if_neg (same_iff.not.2 same), Option.map_bind, Option.map_bind]
    congr 1
    funext rest
    by_cases slash : (clean lead).getLast? = some '/'
    · rw [Function.comp_apply, Function.comp_apply, if_pos slash, if_pos (slash_iff.2 slash)]
      rfl
    · rw [Function.comp_apply, Function.comp_apply, if_neg slash, if_neg (slash_iff.not.2 slash),
        Option.map_map]
      rfl
  rw [read, map_clean_eq_self fun _ => (isCanonical_text path).cutLead?]

/-! ## Sequences of operations -/

/-- An operation that makes a path from a path. -/
inductive Operation where
  | join (more : Text)
  | parent
  | strip (lead : Text)
  | relativeTo (base : Path)

namespace Operation

/-- The path that an operation makes, if there is one. -/
def perform? (operation : Operation) (path : Path) : Option Path :=
  match operation with
  | join more => some (path.join more)
  | parent => path.parent?
  | strip lead => path.strip? lead
  | relativeTo base => path.relativeTo? base

/-- The text that an operation makes. Only what is joined is read again. -/
def cut? (operation : Operation) (text : Text) : Option Text :=
  match operation with
  | join more => some (clean (if text.isEmpty then more else text ++ '/' :: more))
  | parent => cutParent? text
  | strip lead => cutLead? lead text
  | relativeTo base => cutLead? base.text text

theorem text_perform? (operation : Operation) (path : Path) :
    (operation.perform? path).map (·.text) = operation.cut? path.text := by
  cases operation with
  | join more =>
      have empty_iff : path.isEmpty = true ↔ path.text.isEmpty = true := Iff.rfl
      rw [perform?, cut?, Path.join, Option.map_some]
      by_cases none_left : path.text.isEmpty = true
      · rw [if_pos none_left, if_pos (empty_iff.2 none_left), text_ofText]
      · rw [if_neg none_left, if_neg (empty_iff.not.2 none_left), text_ofText]
  | parent => exact text_parent? path
  | strip lead => exact text_strip? path lead
  | relativeTo base => exact text_strip? path base.text

end Operation

/-- The paths that come from a path, one operation after the other. An operation that makes no path
leaves the path as it is. -/
def obtained (path : Path) : List Operation → List Path
  | [] => [path]
  | operation :: operations => path :: obtained ((operation.perform? path).getD path) operations

/-- The texts that come from a text, one operation after the other. -/
def cutTexts (text : Text) : List Operation → List Text
  | [] => [text]
  | operation :: operations => text :: cutTexts ((operation.cut? text).getD text) operations

theorem map_text_obtained (path : Path) (operations : List Operation) :
    (obtained path operations).map (·.text) = cutTexts path.text operations := by
  induction operations generalizing path with
  | nil => rfl
  | cons operation operations ih =>
      have next : ((operation.perform? path).getD path).text =
          (operation.cut? path.text).getD path.text := by
        rw [← operation.text_perform? path]
        cases operation.perform? path <;> rfl
      rw [obtained, cutTexts, List.map_cons, ih, next]

/-- Whatever bytes a path is read from, and however it is extended and cut, every path on the way
has a canonical text, which is read back as that path. The texts are the same when only what is
joined is read again. -/
theorem obtained_canonical (bytes : Bytes) (operations : List Operation) :
    (obtained (ofText (Utf8.decodeLossy bytes)) operations).map (·.text) =
        cutTexts (clean (Utf8.decodeLossy bytes)) operations ∧
      ∀ path ∈ obtained (ofText (Utf8.decodeLossy bytes)) operations,
        IsCanonical path.text ∧ ofText path.text = path := by
  refine ⟨map_text_obtained _ operations, fun path _ => ⟨isCanonical_text path, ofText_text path⟩⟩

theorem obtained_canonical_of_fault :
    let bytes : Bytes := [0x2F, 0x5C, 0x61, 0xFF, 0x2F, 0x2E, 0x2F, 0x62, 0x2F]
    let operations : List Operation := [.parent, .strip ['\\'], .join "../c\\./".toList, .parent]
    (obtained (ofText (Utf8.decodeLossy bytes)) operations).map (·.text) =
        ["/a\uFFFD/b".toList, "/a\uFFFD".toList, "a\uFFFD".toList, "a\uFFFD/../c".toList,
          "a\uFFFD/..".toList] ∧
      ∀ path ∈ obtained (ofText (Utf8.decodeLossy bytes)) operations,
        IsCanonical path.text ∧ ofText path.text = path := by
  intro bytes operations
  obtain ⟨texts, canonical⟩ := obtained_canonical bytes operations
  refine ⟨?_, canonical⟩
  rw [texts]
  decide +kernel

end DistDirectives.Path
