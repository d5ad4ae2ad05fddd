import Mathlib.Tactic.ByContra
import DistDirectives.Path
import DistDirectives.Proofs.Text.Joining

/-!
# Paths as lists of segments

A path is determined by whether it is absolute and by its list of segments.
Reading, extending and stripping are characterized on this view, so that later
files never look at the text of a path again. The main statement is
`strip?_eq_some_iff`: stripping removes a leading run of segments and nothing
else.
-/

namespace DistDirectives.Path

/-! ## Spelling and reading -/

/-- An ending without slashes ends behind the last slash. -/
theorem append_slash_eq_append_iff {directory name front ending : Text} (absent : '/' ∉ ending) :
    directory ++ '/' :: name = front ++ ending ↔
      ∃ stem, name = stem ++ ending ∧ front = directory ++ '/' :: stem := by
  constructor
  · intro split
    rcases List.append_eq_append_iff.1 split with ⟨middle, front_eq, tail_eq⟩ | ⟨middle, _, tail_eq⟩
    · cases middle with
      | nil =>
          have ending_eq : ending = '/' :: name := tail_eq.symm
          exact absurd (by simp [ending_eq]) absent
      | cons c middle =>
          simp only [List.cons_append, List.cons.injEq] at tail_eq
          rcases tail_eq with ⟨rfl, name_eq⟩
          exact ⟨middle, name_eq, front_eq⟩
    · exact absurd (by simp [tail_eq]) absent
  · rintro ⟨stem, rfl, rfl⟩
    simp

/-- A spelled path is its last segment, or ends with that segment behind a slash. -/
theorem spell_concat (absolute : Bool) (front : List Text) (last : Text) :
    spell absolute (front ++ [last]) = last ∨
      ∃ directory, spell absolute (front ++ [last]) = directory ++ '/' :: last := by
  cases front with
  | nil =>
      cases absolute with
      | false => exact .inl rfl
      | true => exact .inr ⟨[], rfl⟩
  | cons first front =>
      have joined := @Text.joinWith_append '/' (first :: front) [last] (by simp) (by simp)
      cases absolute with
      | false => exact .inr ⟨_, joined⟩
      | true => exact .inr ⟨'/' :: Text.joinWith '/' (first :: front), congrArg ('/' :: ·) joined⟩

theorem joinWith_ne_nil {segments : List Text} (proper : ∀ segment ∈ segments, IsSegment segment)
    (nonempty : segments ≠ []) : Text.joinWith '/' segments ≠ [] := by
  cases segments with
  | nil => exact absurd rfl nonempty
  | cons segment rest =>
      have first := (proper segment (by simp)).ne_nil
      cases rest with
      | nil => simpa [Text.joinWith] using first
      | cons next rest => simp

/-- The segments that a spelled path is cut into are the ones that were written. -/
theorem filter_splitOn_spell {absolute : Bool} {segments : List Text}
    (proper : ∀ segment ∈ segments, IsSegment segment) :
    (Text.splitOn '/' (spell absolute segments)).filter (!·.isEmpty) = segments := by
  have kept : (Text.splitOn '/' (Text.joinWith '/' segments)).filter (!·.isEmpty) = segments := by
    cases segments with
    | nil => rfl
    | cons segment rest =>
        rw [Text.splitOn_joinWith (by simp) fun piece mem => (proper piece mem).no_slash]
        apply List.filter_eq_self.2
        intro piece mem
        simpa using (proper piece mem).ne_nil
  cases absolute with
  | false => exact kept
  | true =>
      simp only [spell, if_true, Text.splitOn]
      rw [List.filter_cons_of_neg (by decide), kept]

theorem head?_spell {absolute : Bool} {segments : List Text}
    (proper : ∀ segment ∈ segments, IsSegment segment) :
    ((spell absolute segments).head? == some '/') = absolute := by
  cases absolute with
  | false => simpa [spell] using head?_joinWith_ne_slash proper
  | true => simp [spell]

theorem segments_ofText (raw : Text) :
    (ofText raw).segments = (Text.splitOn '/' (slashed raw)).filter keeps :=
  filter_splitOn_spell fun _ mem => isSegment_of_mem_kept mem

theorem isAbsolute_ofText (raw : Text) :
    (ofText raw).isAbsolute = ((slashed raw).head? == some '/') :=
  head?_spell fun _ mem => isSegment_of_mem_kept mem

/-- A path is spelled by its segments. -/
theorem text_eq_spell (path : Path) : path.text = spell path.isAbsolute path.segments := by
  rw [← ofText_text path, isAbsolute_ofText, segments_ofText]
  rfl

/-- The segments of a path can stand in a canonical path. -/
theorem isSegment_of_mem_segments {path : Path} {segment : Text}
    (mem : segment ∈ path.segments) : IsSegment segment := by
  rw [← ofText_text path, segments_ofText] at mem
  exact isSegment_of_mem_kept mem

/-- Two paths with the same segments, both absolute or both relative, are equal. -/
theorem ext_segments {left right : Path} (absolute : left.isAbsolute = right.isAbsolute)
    (segments : left.segments = right.segments) : left = right := by
  apply ext_text
  rw [text_eq_spell left, text_eq_spell right, absolute, segments]

theorem segments_ofText_spell {absolute : Bool} {segments : List Text}
    (proper : ∀ segment ∈ segments, IsSegment segment) :
    (ofText (spell absolute segments)).segments = segments := by
  have read : (ofText (spell absolute segments)).text = spell absolute segments :=
    clean_spell proper
  rw [Path.segments, read, filter_splitOn_spell proper]

theorem segments_ofText_joinWith {segments : List Text}
    (proper : ∀ segment ∈ segments, IsSegment segment) :
    (ofText (Text.joinWith '/' segments)).segments = segments :=
  @segments_ofText_spell false segments proper

theorem isAbsolute_ofText_joinWith {segments : List Text}
    (proper : ∀ segment ∈ segments, IsSegment segment) :
    (ofText (Text.joinWith '/' segments)).isAbsolute = false := by
  have read : (ofText (Text.joinWith '/' segments)).text = Text.joinWith '/' segments :=
    @clean_spell false segments proper
  rw [isAbsolute, read]
  exact @head?_spell false segments proper

/-- Segments that can stand in a path are those of a relative path. -/
theorem exists_relative {segments : List Text} (proper : ∀ segment ∈ segments, IsSegment segment) :
    ∃ path : Path, path.isAbsolute = false ∧ path.segments = segments :=
  ⟨ofText (Text.joinWith '/' segments), isAbsolute_ofText_joinWith proper,
    segments_ofText_joinWith proper⟩

/-- A text that can stand as a segment is read as that segment alone. -/
theorem segments_ofText_segment {segment : Text} (proper : IsSegment segment) :
    (ofText segment).segments = [segment] :=
  @segments_ofText_joinWith [segment] (by simpa using proper)

theorem isAbsolute_ofText_segment {segment : Text} (proper : IsSegment segment) :
    (ofText segment).isAbsolute = false :=
  @isAbsolute_ofText_joinWith [segment] (by simpa using proper)

/-- The text of a relative path joins its segments. -/
theorem text_of_relative {path : Path} (relative : path.isAbsolute = false) :
    path.text = Text.joinWith '/' path.segments := by
  rw [text_eq_spell path, relative]
  rfl

/-- Only the relative path without segments has no text. -/
theorem isEmpty_iff {path : Path} :
    path.isEmpty = true ↔ path.isAbsolute = false ∧ path.segments = [] := by
  rw [isEmpty, List.isEmpty_iff, text_eq_spell path]
  cases absolute : path.isAbsolute with
  | true => simp [spell]
  | false =>
      simp only [spell, Bool.false_eq_true, if_false, true_and]
      constructor
      · intro none_left
        by_contra nonempty
        exact joinWith_ne_nil (fun _ mem => isSegment_of_mem_segments mem) nonempty none_left
      · intro none_left
        rw [none_left]
        rfl

/-- A name that a canonical path spells as it is and that leads down. -/
structure IsPlainName (name : Text) : Prop extends IsSegment name where
  ne_dots : name ≠ ['.', '.']

theorem empty_segments : empty.segments = [] := by decide

theorem empty_isAbsolute : empty.isAbsolute = false := by decide

/-! ## Extending a path -/

theorem backslash_not_mem_text (path : Path) : '\\' ∉ path.text := by
  have inner : '\\' ∉ Text.joinWith '/' path.segments :=
    backslash_not_mem_joinWith fun _ mem => isSegment_of_mem_segments mem
  rw [text_eq_spell path]
  cases path.isAbsolute <;> simp [spell, inner]

theorem slashed_text_append (path : Path) (more : Text) :
    slashed (path.text ++ '/' :: more) = path.text ++ '/' :: slashed more := by
  have same := slashed_eq_self (backslash_not_mem_text path)
  rw [slashed] at same ⊢
  simp [same, slashed]

theorem filter_keeps_splitOn_text (path : Path) :
    (Text.splitOn '/' path.text).filter keeps = path.segments := by
  have read := segments_ofText path.text
  rwa [slashed_eq_self (backslash_not_mem_text path), ofText_text, eq_comm] at read

/-- Extending a path adds the segments of what is added. -/
@[simp]
theorem segments_join (path : Path) (more : Text) :
    (path.join more).segments = path.segments ++ (ofText more).segments := by
  rw [join]
  split
  · rename_i is_empty
    rw [(isEmpty_iff.1 is_empty).2, List.nil_append]
  · rw [segments_ofText, slashed_text_append, Text.splitOn_append_separator, List.filter_append,
      filter_keeps_splitOn_text, segments_ofText]

/-- Extending a path that is not empty keeps whether it is absolute. -/
theorem isAbsolute_join (path : Path) (more : Text) :
    (path.join more).isAbsolute =
      if path.isEmpty then (ofText more).isAbsolute else path.isAbsolute := by
  rw [join]
  split
  · rfl
  · rename_i nonempty
    rw [isAbsolute_ofText, slashed_text_append, isAbsolute]
    cases text : path.text with
    | nil => exact absurd (by simp [isEmpty, text]) nonempty
    | cons c rest => rfl

theorem isAbsolute_join_of_relative (path : Path) {more : Text}
    (relative : (ofText more).isAbsolute = false) :
    (path.join more).isAbsolute = path.isAbsolute := by
  rw [isAbsolute_join]
  split
  · rename_i is_empty
    rw [relative, (isEmpty_iff.1 is_empty).1]
  · rfl

theorem segments_join_segment (path : Path) {segment : Text} (proper : IsSegment segment) :
    (path.join segment).segments = path.segments ++ [segment] := by
  rw [segments_join, segments_ofText_segment proper]

/-! ## Stripping a leading run of segments -/

/-- A path whose text ends with a slash is the top of the disk. -/
theorem segments_eq_nil_of_getLast? {path : Path} (slash : path.text.getLast? = some '/') :
    path.isAbsolute = true ∧ path.segments = [] := by
  have proper : ∀ segment ∈ path.segments, IsSegment segment :=
    fun _ mem => isSegment_of_mem_segments mem
  rw [text_eq_spell path] at slash
  -- the last character of a segment is no slash, so there is no segment
  have noneLeft : path.segments = [] := by
    by_contra nonempty
    obtain ⟨front, last, split⟩ := (List.eq_nil_or_concat path.segments).resolve_left nonempty
    rw [List.concat_eq_append] at split
    have lastProper := proper last (by simp [split])
    rw [split] at slash
    have ending : last.getLast? = some '/' := by
      rcases spell_concat path.isAbsolute front last with spelled | ⟨directory, spelled⟩
      · rwa [spelled] at slash
      · rwa [spelled, List.getLast?_append, List.getLast?_cons_of_ne_nil lastProper.ne_nil,
          Option.or_of_isSome (by simpa using lastProper.ne_nil)] at slash
    exact lastProper.no_slash (List.mem_of_getLast? ending)
  refine ⟨?_, noneLeft⟩
  cases absolute : path.isAbsolute with
  | true => rfl
  | false => simp [absolute, noneLeft, spell, Text.joinWith] at slash

theorem text_eq_append {path lead : Path} {rest : List Text}
    (absolute : path.isAbsolute = lead.isAbsolute) (leadNonempty : lead.segments ≠ [])
    (restNonempty : rest ≠ []) (segments : path.segments = lead.segments ++ rest) :
    path.text = lead.text ++ '/' :: Text.joinWith '/' rest := by
  rw [text_eq_spell path, text_eq_spell lead, absolute, segments]
  cases lead.isAbsolute <;> simp [spell, Text.joinWith_append leadNonempty restNonempty]

/-- Behind the top of the disk stands a relative path with the same segments. -/
theorem exists_text_eq_top_iff {path rest : Path} :
    (∃ tail, path.text = '/' :: tail ∧ ofText tail = rest) ↔
      path.isAbsolute = true ∧ rest.isAbsolute = false ∧ path.segments = rest.segments := by
  have proper : ∀ segment ∈ path.segments, IsSegment segment :=
    fun _ mem => isSegment_of_mem_segments mem
  constructor
  · rintro ⟨tail, text, rfl⟩
    have absolute : path.isAbsolute = true := by simp [isAbsolute, text]
    have spelled := text_eq_spell path
    simp only [text, absolute, spell, if_true, List.cons.injEq, true_and] at spelled
    rw [spelled, segments_ofText_joinWith proper, isAbsolute_ofText_joinWith proper]
    exact ⟨absolute, rfl, rfl⟩
  · rintro ⟨absolute, relative, segments⟩
    refine ⟨rest.text, ?_, ofText_text rest⟩
    rw [text_eq_spell path, text_eq_spell rest, absolute, relative, segments]
    rfl

/-- Behind another path and a slash stands a relative path with the segments that follow. -/
theorem exists_text_eq_append_iff {path lead rest : Path} (nonempty : lead.segments ≠ [])
    (differs : path ≠ lead) :
    (∃ tail, path.text = lead.text ++ '/' :: tail ∧ ofText tail = rest) ↔
      path.isAbsolute = lead.isAbsolute ∧ rest.isAbsolute = false ∧
        path.segments = lead.segments ++ rest.segments := by
  have lead_filled : ¬ lead.isEmpty = true := fun is_empty => nonempty (isEmpty_iff.1 is_empty).2
  have nonempty_of {remaining : Path} (absolute : path.isAbsolute = lead.isAbsolute)
      (segments : path.segments = lead.segments ++ remaining.segments) :
      remaining.segments ≠ [] := by
    intro none_left
    exact differs (ext_segments absolute (by simpa [none_left] using segments))
  constructor
  · rintro ⟨tail, text, rfl⟩
    have extended : path = lead.join tail := by
      rw [join, if_neg lead_filled, ← text, ofText_text]
    have absolute : path.isAbsolute = lead.isAbsolute := by
      rw [extended, isAbsolute_join, if_neg lead_filled]
    have segments : path.segments = lead.segments ++ (ofText tail).segments := by
      rw [extended, segments_join]
    have spelled := text_eq_append absolute nonempty (nonempty_of absolute segments) segments
    have tail_eq : tail = Text.joinWith '/' (ofText tail).segments := by
      simpa [text] using spelled
    refine ⟨absolute, ?_, segments⟩
    rw [tail_eq]
    exact isAbsolute_ofText_joinWith fun _ mem => isSegment_of_mem_segments mem
  · rintro ⟨absolute, relative, segments⟩
    have spelled := text_eq_append absolute nonempty (nonempty_of absolute segments) segments
    rw [← text_of_relative relative] at spelled
    exact ⟨rest.text, spelled, ofText_text rest⟩

/-- Stripping succeeds exactly on a leading run of segments of a path that is
absolute or relative as the run is, and yields what follows as a relative path.
Stripping the empty path changes nothing. -/
theorem strip?_eq_some_iff {path rest : Path} {lead : Text} :
    path.strip? lead = some rest ↔
      if (ofText lead).isEmpty then rest = path
      else path.isAbsolute = (ofText lead).isAbsolute ∧ rest.isAbsolute = false ∧
        path.segments = (ofText lead).segments ++ rest.segments := by
  rw [strip?]
  generalize ofText lead = lead
  by_cases lead_empty : lead.isEmpty = true
  · simp [lead_empty, eq_comm]
  simp only [lead_empty, Bool.false_eq_true, if_false]
  by_cases same : path = lead
  · subst same
    simp only [if_true, Option.some.injEq, true_and, List.self_eq_append_right]
    constructor
    · rintro rfl
      exact ⟨empty_isAbsolute, empty_segments⟩
    · rintro ⟨relative, none_left⟩
      exact (ext_segments (by rw [relative, empty_isAbsolute])
        (by rw [none_left, empty_segments])).symm
  simp only [same, if_false]
  by_cases slash : lead.text.getLast? = some '/'
  · rcases segments_eq_nil_of_getLast? slash with ⟨lead_absolute, lead_segments⟩
    have lead_text : lead.text = ['/'] := by
      rw [text_eq_spell lead, lead_absolute, lead_segments]
      rfl
    simp only [slash, if_true, lead_absolute, lead_segments, List.nil_append,
      Option.bind_eq_some_iff, Text.after?_eq_some_iff, Option.some.injEq]
    rw [lead_text]
    exact exists_text_eq_top_iff
  · have nonempty : lead.segments ≠ [] := by
      intro none_left
      cases absolute : lead.isAbsolute with
      | false => exact lead_empty (isEmpty_iff.2 ⟨absolute, none_left⟩)
      | true => exact slash (by rw [text_eq_spell lead, absolute, none_left]; rfl)
    rw [← exists_text_eq_append_iff nonempty same]
    simp only [slash, if_false, Option.bind_eq_some_iff, Text.after?_eq_some_iff,
      Option.map_eq_some_iff, List.singleton_append]
    constructor
    · rintro ⟨_, text, tail, rfl, rfl⟩
      exact ⟨tail, text, rfl⟩
    · rintro ⟨tail, text, rfl⟩
      exact ⟨_, text, tail, rfl, rfl⟩

/-- Where the segments of a lead stand before others in a path that is absolute or relative as the
lead is, stripping leaves the others as a relative path. -/
theorem exists_strip?_of_segments {path : Path} {lead : Text} {names : List Text}
    (absolute : path.isAbsolute = (ofText lead).isAbsolute)
    (segments : path.segments = (ofText lead).segments ++ names) :
    ∃ rest, path.strip? lead = some rest ∧ rest.isAbsolute = false ∧ rest.segments = names := by
  obtain ⟨rest, relative, rfl⟩ : ∃ rest : Path, rest.isAbsolute = false ∧ rest.segments = names :=
    exists_relative fun name mem =>
      isSegment_of_mem_segments (segments ▸ List.mem_append_right _ mem)
  refine ⟨rest, ?_, relative, rfl⟩
  rw [strip?_eq_some_iff]
  split
  · rename_i lead_empty
    rcases isEmpty_iff.1 lead_empty with ⟨lead_relative, lead_segments⟩
    apply ext_segments
    · rw [relative, absolute, lead_relative]
    · rw [segments, lead_segments, List.nil_append]
  · exact ⟨absolute, relative, segments⟩

/-- A path lies below a directory when it goes on behind the segments of the directory. -/
def LiesBelow (path directory : Path) : Prop :=
  path.isAbsolute = directory.isAbsolute ∧
    ∃ rest, rest ≠ [] ∧ path.segments = directory.segments ++ rest

/-- What lies below a directory is stripped to a relative path that is not empty. -/
theorem LiesBelow.strip {path : Path} {lead : Text} (below : path.LiesBelow (ofText lead)) :
    ∃ rest, path.strip? lead = some rest ∧ rest.isAbsolute = false ∧ rest.segments ≠ [] ∧
      path.segments = (ofText lead).segments ++ rest.segments := by
  rcases below with ⟨absolute, names, nonempty, segments⟩
  obtain ⟨rest, stripped, relative, rfl⟩ := exists_strip?_of_segments absolute segments
  exact ⟨rest, stripped, relative, nonempty, segments⟩

/-- An ending without slashes is looked for in the last segment. -/
theorem isSuffix_text_iff {path : Path} {front : List Text} {last ending : Text}
    (segments : path.segments = front ++ [last]) (absent : '/' ∉ ending) :
    ending <:+ path.text ↔ ending <:+ last := by
  rw [text_eq_spell path, segments]
  rcases spell_concat path.isAbsolute front last with spelled | ⟨directory, spelled⟩
  · rw [spelled]
  · rw [spelled]
    constructor
    · rintro ⟨before, split⟩
      rcases (append_slash_eq_append_iff absent).1 split.symm with ⟨stem, last_eq, _⟩
      exact ⟨stem, last_eq.symm⟩
    · rintro ⟨stem, rfl⟩
      exact ⟨directory ++ '/' :: stem, by simp⟩

end DistDirectives.Path
