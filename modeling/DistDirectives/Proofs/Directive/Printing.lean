import DistDirectives.Proofs.Directive.Scan

/-!
# Printing line replacements

A line replacement has one printed form, with single blanks between its parts. It can
stand behind any text that does not mention a directive, other comments and annotations
included, and in front of any text without a closing bracket: reading the line gives the
replacement back (`read_append_written`). What is put in quotes may mention directives of
its own. Everything that is ever read as a line replacement can be printed, so printing
and reading are inverse (`read_written`).
-/

namespace DistDirectives.Directive

open Text (AllOf IsBlanks IsGap Stops)

/-! ## The printed form -/

namespace Body

/-- A clause in its printed form. -/
def writtenClause (keyword : Text) : Option Text → Text
  | none => []
  | some content => [' '] ++ (keyword ++ ([' '] ++ quote :: (content ++ [quote])))

/-- A body in its printed form. -/
def written (replacement : Text) (condition alternative : Option Text) : Text :=
  [' '] ++ backtick :: (replacement ++ backtick ::
    (writtenClause ifKeyword condition ++ writtenClause elseKeyword alternative))

end Body

/-- A line replacement in its printed form, from the comment marker to the closing bracket. -/
def written (replacement : Text) (condition alternative : Option Text) : Text :=
  commentMarker ++ ([' '] ++ (token ++ (replaceLineName ++
    (Body.written replacement condition alternative ++ ['>']))))

/-- Texts that can be put in their quotes. -/
structure IsQuotable (replacement : Text) (condition alternative : Option Text) : Prop where
  replacement : Body.backtick ∉ replacement
  condition : ∀ text ∈ condition, Body.quote ∉ text
  alternative : ∀ text ∈ alternative, Body.quote ∉ text

/-- Texts that stand on one line. -/
structure IsOneLine (replacement : Text) (condition alternative : Option Text) : Prop where
  replacement : '\n' ∉ replacement
  condition : ∀ text ∈ condition, '\n' ∉ text
  alternative : ∀ text ∈ alternative, '\n' ∉ text

example : written "b".toList (some "c".toList) (some "d".toList) =
    "// <dler-replace-line-to `b` if 'c' else 'd'>".toList := rfl

variable {replacement : Text} {condition alternative : Option Text}

namespace Body

theorem isClause_writtenClause (keyword : Text) {content : Option Text}
    (absent : ∀ text ∈ content, quote ∉ text) :
    IsClause keyword content (writtenClause keyword content) := by
  cases content with
  | none => exact .missing
  | some content => exact .given Text.isGap_space Text.isGap_space (absent content rfl)

/-- The printed form is one of the forms in which a body is written. -/
theorem isWritten_written (quotable : IsQuotable replacement condition alternative) :
    IsWritten replacement condition alternative (written replacement condition alternative) :=
  ⟨[' '], _, _, [], by simp [written], Text.isGap_space.blanks, quotable.replacement,
    isClause_writtenClause ifKeyword quotable.condition,
    isClause_writtenClause elseKeyword quotable.alternative, Text.isBlanks_nil⟩

theorem lineFeed_not_mem_writtenClause {keyword : Text} (absent : '\n' ∉ keyword)
    {content : Option Text} (oneLine : ∀ text ∈ content, '\n' ∉ text) :
    '\n' ∉ writtenClause keyword content := by
  cases content with
  | none => simp [writtenClause]
  | some content =>
      have inner := oneLine content rfl
      have ends : '\n' ≠ quote := by decide
      simp [writtenClause, absent, inner, ends]

theorem lineFeed_not_mem_written (oneLine : IsOneLine replacement condition alternative) :
    '\n' ∉ written replacement condition alternative := by
  have ends : '\n' ≠ backtick := by decide
  have inIf := lineFeed_not_mem_writtenClause (by decide : '\n' ∉ ifKeyword) oneLine.condition
  have inElse := lineFeed_not_mem_writtenClause (by decide : '\n' ∉ elseKeyword) oneLine.alternative
  simp [written, ends, oneLine.replacement, inIf, inElse]

/-- What a clause holds is free of its quote, and of line feeds if the clause is. -/
theorem IsClause.content {keyword clause : Text} {content : Option Text}
    (isClause : IsClause keyword content clause) :
    ∀ text ∈ content, quote ∉ text ∧ ('\n' ∉ clause → '\n' ∉ text) := by
  rintro text ⟨⟩
  cases isClause with
  | given _ _ absent => exact ⟨absent, fun oneLine mem => oneLine (by simp [mem])⟩

/-- The parts of a body are free of their quotes, and of line feeds if the body is. -/
theorem IsWritten.parts {body : Text} (isWritten : IsWritten replacement condition alternative body)
    (oneLine : '\n' ∉ body) :
    IsQuotable replacement condition alternative ∧ IsOneLine replacement condition alternative := by
  obtain ⟨lead, ifClause, elseClause, trail, rfl, -, absent, isIf, isElse, -⟩ := isWritten
  simp only [List.mem_append, List.mem_cons, not_or] at oneLine
  obtain ⟨-, -, inReplacement, -, inIf, inElse, -⟩ := oneLine
  exact ⟨⟨absent, fun text mem => (isIf.content text mem).1,
    fun text mem => (isElse.content text mem).1⟩,
    ⟨inReplacement, fun text mem => (isIf.content text mem).2 inIf,
      fun text mem => (isElse.content text mem).2 inElse⟩⟩

end Body

/-! ## The token of a printed directive -/

theorem mentioned_iff {text : Text} : mentioned text = true ↔ token <:+: text := by
  rw [mentioned, Text.occurs_iff]
  exact exists_congr fun front => exists_congr fun back => eq_comm

theorem mem_of_concat_eq_append {front back other : Text} {c : Char}
    (split : front ++ [c] = other ++ back) (nonempty : back ≠ []) : c ∈ back := by
  obtain ⟨inner, last, rfl⟩ := (List.eq_nil_or_concat' back).resolve_left nonempty
  rw [← List.append_assoc] at split
  obtain ⟨-, same⟩ := List.append_inj' split rfl
  simp [List.singleton_inj.1 same]

/-- No token goes across a blank behind a text that mentions none. -/
theorem eq_nil_of_token_append_blank {text front more rest rest' : Text} (absent : ¬token <:+: text)
    (ends : text ++ [' '] = front ++ more) (starts : token ++ rest' = more ++ (token ++ rest)) :
    more = [] := by
  have noBlank : ' ' ∉ token := by decide
  by_contra nonempty
  rcases List.append_eq_append_iff.1 starts with ⟨others, rfl, -⟩ | ⟨others, token_eq, -⟩
  · rcases List.eq_nil_or_concat' others with rfl | ⟨inner, last, rfl⟩
    · rw [List.append_nil] at ends
      exact noBlank (mem_of_concat_eq_append ends (by decide))
    · simp only [← List.append_assoc] at ends
      exact absent ⟨front, inner, (List.append_inj' ends rfl).1.symm⟩
  · have blank : ' ' ∈ more := mem_of_concat_eq_append ends nonempty
    exact noBlank (by simp [token_eq, blank])

theorem not_infix_append_commentMarker {before : Text} (absent : ¬token <:+: before) :
    ¬token <:+: before ++ commentMarker := by
  rintro ⟨front, back, split⟩
  have token_eq : token = "<dler".toList ++ ['-'] := by decide
  have parts : before ++ commentMarker = (front ++ "<dler".toList) ++ '-' :: back := by
    simp [← split, token_eq]
  obtain ⟨inside, -, before_eq⟩ := exists_inside_of_append_eq parts (by decide)
  exact absent ⟨front, inside, by simp [before_eq, token_eq]⟩

/-- No token goes across the end of a marker with a blank behind it, when the text in
front of the marker mentions none. -/
theorem eq_nil_of_token_append {before front more rest rest' : Text} (absent : ¬token <:+: before)
    (ends : before ++ (commentMarker ++ [' ']) = front ++ more)
    (starts : token ++ rest' = more ++ (token ++ rest)) : more = [] := by
  rw [← List.append_assoc] at ends
  exact eq_nil_of_token_append_blank (not_infix_append_commentMarker absent) ends starts

/-- Whatever leads to a token from a marker that stands no later than a printed directive
leads to the token of that directive. -/
theorem rest_eq_of_approach {before front approach rest rest' : Text} (absent : ¬token <:+: before)
    (isApproach : IsApproach approach) (earlier : front.length ≤ before.length)
    (split : before ++ (commentMarker ++ ([' '] ++ (token ++ rest))) =
      front ++ (commentMarker ++ (approach ++ (token ++ rest')))) : rest' = rest := by
  have regrouped : (before ++ (commentMarker ++ [' '])) ++ (token ++ rest) =
      (front ++ (commentMarker ++ approach)) ++ (token ++ rest') := by
    simpa only [List.append_assoc] using split
  rcases List.append_eq_append_iff.1 regrouped with ⟨more, front_eq, rest_eq⟩ |
    ⟨more, before_eq, rest_eq⟩
  · cases more with
    | nil => exact (List.append_cancel_left rest_eq).symm
    | cons c more =>
        -- the bracket would stand behind the earlier marker, in front of the token
        have bracket : c = '<' := (List.cons.inj rest_eq).1.symm
        have longer : before <+: front ++ (commentMarker ++ approach) := by
          rw [front_eq, List.append_assoc]
          exact List.prefix_append _ _
        obtain ⟨between, rfl⟩ :=
          List.prefix_of_prefix_length_le (List.prefix_append _ _) longer earlier
        simp only [List.append_assoc, List.append_cancel_left_eq] at front_eq
        have inside : '<' ∈ commentMarker ++ approach := by simp [front_eq, bracket]
        exact ((List.mem_append.1 inside).elim (by decide) isApproach.bracket_not_mem).elim
  · rw [eq_nil_of_token_append absent before_eq rest_eq, List.nil_append] at rest_eq
    exact List.append_cancel_left rest_eq

/-! ## Reading what was printed -/

/-- Behind the token of a printed directive its name and its body are taken. -/
theorem nameAndBody?_written {after : Text}
    (oneLine : IsOneLine replacement condition alternative) (unclosed : '>' ∉ after) :
    nameAndBody?
      (replaceLineName ++ (Body.written replacement condition alternative ++ '>' :: after)) =
      some (replaceLineName, Body.written replacement condition alternative) := by
  have nameFits : AllOf isNameChar replaceLineName := by decide
  have ends : Stops isNameChar (Body.written replacement condition alternative) :=
    Text.stops_cons.2 (by decide)
  exact nameAndBody?_eq_some_iff.2 ⟨after, rfl, by decide, nameFits,
    Body.lineFeed_not_mem_written oneLine, ends,
    fun mem => unclosed ((List.takeWhile_sublist _).subset mem)⟩

/-- Scanning finds a printed directive behind any text that mentions none and in front of
any text without a closing bracket. -/
theorem scan_append_written {before after : Text} (absent : ¬token <:+: before)
    (oneLine : IsOneLine replacement condition alternative) (unclosed : '>' ∉ after) :
    scan (before ++ (written replacement condition alternative ++ after)) =
      some (replaceLineName, Body.written replacement condition alternative) := by
  have reads := nameAndBody?_written oneLine unclosed
  have line_eq : written replacement condition alternative ++ after =
      commentMarker ++ ([' '] ++ (token ++ (replaceLineName ++
        (Body.written replacement condition alternative ++ '>' :: after)))) := by
    simp [written]
  have isApproach : IsApproach [' '] := ⟨[' '], [], rfl, Text.isGap_space.blanks, .inl rfl⟩
  have here := atMarker?_approach isApproach (replaceLineName ++
    (Body.written replacement condition alternative ++ '>' :: after))
  rw [reads, ← line_eq] at here
  have finds : atMarker? (written replacement condition alternative ++ after) ≠ none := by
    simp [here]
  obtain ⟨found, scanned⟩ := Option.ne_none_iff_exists'.1 (scan_append_ne_none before finds)
  -- an earlier marker may lead to the token too, and then to the same one
  obtain ⟨front, back, split, there, leftmost⟩ := exists_of_scan scanned
  have earlier := leftmost before _ rfl finds
  obtain ⟨approach, rest, rfl, otherApproach, otherReads⟩ := exists_approach there
  rw [line_eq] at split
  rw [rest_eq_of_approach absent otherApproach earlier split, reads] at otherReads
  rw [scanned, otherReads]

theorem read_append_written {before after : Text} (absent : ¬token <:+: before)
    (quotable : IsQuotable replacement condition alternative)
    (oneLine : IsOneLine replacement condition alternative) (unclosed : '>' ∉ after) :
    read (before ++ (written replacement condition alternative ++ after)) =
      .directive (.replaceLine replacement condition alternative) := by
  have means := Means.replaceLine (Body.isWritten_written quotable)
  rw [read, scan_upToLastBracket, scan_append_written absent oneLine unclosed]
  exact means_iff.1 means

/-- The parts that a line is read as a replacement with stand in their quotes, on one line. -/
theorem parts_of_read {line : Text}
    (reads : read line = .directive (.replaceLine replacement condition alternative)) :
    IsQuotable replacement condition alternative ∧ IsOneLine replacement condition alternative := by
  obtain ⟨o, first, means⟩ := exists_isFirst_of_read reads (by simp)
  generalize o.name = name at means
  cases means with
  | replaceLine isWritten => exact isWritten.parts first.isIn.oneLine

/-- Printing a line replacement and reading the line gives the replacement back; and
whatever a line is read as a replacement of can be printed that way. -/
theorem read_written :
    (∀ (before after replacement : Text) (condition alternative : Option Text),
      ¬token <:+: before → IsQuotable replacement condition alternative →
        IsOneLine replacement condition alternative → '>' ∉ after →
          read (before ++ (written replacement condition alternative ++ after)) =
            .directive (.replaceLine replacement condition alternative)) ∧
      ∀ (line replacement : Text) (condition alternative : Option Text),
        read line = .directive (.replaceLine replacement condition alternative) →
          IsQuotable replacement condition alternative ∧
            IsOneLine replacement condition alternative ∧
              ∀ before after : Text, ¬token <:+: before → '>' ∉ after →
                read (before ++ (written replacement condition alternative ++ after)) =
                  .directive (.replaceLine replacement condition alternative) := by
  constructor
  · intro before after replacement condition alternative absent quotable oneLine unclosed
    exact read_append_written absent quotable oneLine unclosed
  · intro line replacement condition alternative reads
    obtain ⟨quotable, oneLine⟩ := parts_of_read reads
    exact ⟨quotable, oneLine, fun before after absent unclosed =>
      read_append_written absent quotable oneLine unclosed⟩

/-- A printed directive behind an annotation, whose replacement and condition mention
directives and hold brackets, markers and the other quote. -/
def nestedLine : Text :=
  ("a // @ts-ignore <b > // <dler-replace-line-to `x // <dler-remove-line> 'y'` " ++
    "if '<dler-`> //' else ''> // c").toList

theorem read_written_nested :
    ¬token <:+: "a // @ts-ignore <b > ".toList ∧ '>' ∉ " // c".toList ∧
      IsQuotable "x // <dler-remove-line> 'y'".toList (some "<dler-`> //".toList) (some []) ∧
        IsOneLine "x // <dler-remove-line> 'y'".toList (some "<dler-`> //".toList) (some []) ∧
          read nestedLine = .directive (.replaceLine "x // <dler-remove-line> 'y'".toList
            (some "<dler-`> //".toList) (some [])) ∧
            read (written "x // <dler-remove-line> 'y'".toList
              (some "<dler-`> //".toList) (some [])) =
              .directive (.replaceLine "x // <dler-remove-line> 'y'".toList
                (some "<dler-`> //".toList) (some [])) := by
  have absent : ¬token <:+: "a // @ts-ignore <b > ".toList := fun mention =>
    absurd (mentioned_iff.2 mention) (by decide)
  have nothing : ¬token <:+: [] := fun mention => absurd (mentioned_iff.2 mention) (by decide)
  have unclosed : '>' ∉ " // c".toList := by decide
  have quotable :
      IsQuotable "x // <dler-remove-line> 'y'".toList (some "<dler-`> //".toList) (some []) :=
    ⟨by decide, by rintro _ ⟨⟩; decide, by rintro _ ⟨⟩; decide⟩
  have oneLine :
      IsOneLine "x // <dler-remove-line> 'y'".toList (some "<dler-`> //".toList) (some []) :=
    ⟨by decide, by rintro _ ⟨⟩; decide, by rintro _ ⟨⟩; decide⟩
  have line_eq : "a // @ts-ignore <b > ".toList ++
      (written "x // <dler-remove-line> 'y'".toList (some "<dler-`> //".toList) (some []) ++
        " // c".toList) = nestedLine := by decide +kernel
  have reads := read_written.1 _ _ _ _ _ absent quotable oneLine unclosed
  rw [line_eq] at reads
  obtain ⟨-, -, again⟩ := read_written.2 _ _ _ _ reads
  have alone := again [] [] nothing (List.not_mem_nil)
  rw [List.nil_append, List.append_nil] at alone
  exact ⟨absent, unclosed, quotable, oneLine, reads, alone⟩

end DistDirectives.Directive
