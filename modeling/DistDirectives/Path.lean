import DistDirectives.Text

/-!
# Project paths

Source and distribution files are compared and mapped by their paths, so every
path is kept in one canonical spelling: slashes between segments, no empty
segment, no segment that is a single dot, and no slash at the end. Any text can
be read as a path. Reading is idempotent, and a path consists of a text that
reading leaves alone, so every operation below yields a canonical path.

The view of a path is its list of segments together with whether it is absolute.
-/

namespace DistDirectives

namespace Path

/-- Backslashes separate segments as slashes do. -/
def slashed (raw : Text) : Text := raw.map fun c => if c = '\\' then '/' else c

/-- A segment that a canonical path keeps. -/
def keeps (segment : Text) : Bool := !segment.isEmpty && segment != ['.']

/-- Segments written as a path. -/
def spell (absolute : Bool) (segments : List Text) : Text :=
  if absolute then '/' :: Text.joinWith '/' segments else Text.joinWith '/' segments

/-- The canonical spelling of a text that names a path. -/
def clean (raw : Text) : Text :=
  spell ((slashed raw).head? == some '/') ((Text.splitOn '/' (slashed raw)).filter keeps)

/-! ## Reading is idempotent -/

/-- A piece of text that can stand as a segment of a canonical path. -/
structure IsSegment (segment : Text) : Prop where
  ne_nil : segment ≠ []
  ne_dot : segment ≠ ['.']
  no_slash : '/' ∉ segment
  no_backslash : '\\' ∉ segment

theorem keeps_iff {segment : Text} : keeps segment = true ↔ segment ≠ [] ∧ segment ≠ ['.'] := by
  simp [keeps]

theorem backslash_not_mem_slashed (raw : Text) : '\\' ∉ slashed raw := by
  simp only [slashed, List.mem_map, not_exists, not_and]
  intro c _
  split <;> simp_all

theorem slashed_eq_self {raw : Text} (absent : '\\' ∉ raw) : slashed raw = raw := by
  induction raw with
  | nil => rfl
  | cons c rest ih =>
    simp only [List.mem_cons, not_or] at absent
    have : slashed (c :: rest) = c :: slashed rest := by
      simp [slashed, Ne.symm absent.1]
    rw [this, ih absent.2]

theorem mem_of_mem_splitOn {separator c : Char} {text piece : Text}
    (mem : piece ∈ Text.splitOn separator text) (holds : c ∈ piece) : c ∈ text := by
  induction text generalizing piece with
  | nil => simp_all [Text.splitOn]
  | cons d rest ih =>
    simp only [Text.splitOn] at mem
    split at mem
    · rcases List.mem_cons.1 mem with rfl | mem
      · simp at holds
      · exact List.mem_cons_of_mem _ (ih mem holds)
    · split at mem
      · simp_all
      · rename_i first pieces pieces_eq
        rcases List.mem_cons.1 mem with rfl | mem
        · rcases List.mem_cons.1 holds with rfl | holds
          · simp
          · exact List.mem_cons_of_mem _ (ih (by simp [pieces_eq]) holds)
        · exact List.mem_cons_of_mem _ (ih (by simp [pieces_eq, mem]) holds)

/-- The segments that reading keeps can stand in a canonical path. -/
theorem isSegment_of_mem_kept {raw segment : Text}
    (mem : segment ∈ (Text.splitOn '/' (slashed raw)).filter keeps) : IsSegment segment := by
  obtain ⟨mem, kept⟩ := List.mem_filter.1 mem
  obtain ⟨ne_nil, ne_dot⟩ := keeps_iff.1 kept
  exact ⟨ne_nil, ne_dot, Text.not_mem_of_mem_splitOn mem,
    fun holds => backslash_not_mem_slashed raw (mem_of_mem_splitOn mem holds)⟩

theorem head?_joinWith_ne_slash {segments : List Text}
    (proper : ∀ segment ∈ segments, IsSegment segment) :
    (Text.joinWith '/' segments).head? ≠ some '/' := by
  cases segments with
  | nil => simp [Text.joinWith]
  | cons segment segments =>
    have first := proper segment (by simp)
    cases segment with
    | nil => exact absurd rfl first.ne_nil
    | cons c segment =>
      have differs : c ≠ '/' := fun same => first.no_slash (by simp [same])
      cases segments <;> simp [Text.joinWith, differs]

theorem backslash_not_mem_joinWith {segments : List Text}
    (proper : ∀ segment ∈ segments, IsSegment segment) :
    '\\' ∉ Text.joinWith '/' segments := by
  induction segments with
  | nil => simp [Text.joinWith]
  | cons segment segments ih =>
    have first := (proper segment (by simp)).no_backslash
    have others := ih fun other mem => proper other (by simp [mem])
    cases segments with
    | nil => simpa [Text.joinWith] using first
    | cons next segments => simp [first, others]

theorem filter_splitOn_joinWith {segments : List Text}
    (proper : ∀ segment ∈ segments, IsSegment segment) :
    (Text.splitOn '/' (Text.joinWith '/' segments)).filter keeps = segments := by
  cases segments with
  | nil => rfl
  | cons segment rest =>
    rw [Text.splitOn_joinWith (by simp) fun piece mem => (proper piece mem).no_slash]
    exact List.filter_eq_self.2 fun piece mem =>
      keeps_iff.2 ⟨(proper piece mem).ne_nil, (proper piece mem).ne_dot⟩

/-- Segments written as a path are read back as they were. -/
theorem clean_spell {absolute : Bool} {segments : List Text}
    (proper : ∀ segment ∈ segments, IsSegment segment) :
    clean (spell absolute segments) = spell absolute segments := by
  have inner := backslash_not_mem_joinWith proper
  cases absolute with
  | false =>
    have same : slashed (Text.joinWith '/' segments) = Text.joinWith '/' segments :=
      slashed_eq_self inner
    have head := head?_joinWith_ne_slash proper
    simp only [clean, spell, Bool.false_eq_true, if_false, same, filter_splitOn_joinWith proper]
    rw [if_neg (by simpa using head)]
  | true =>
    have same : slashed ('/' :: Text.joinWith '/' segments) = '/' :: Text.joinWith '/' segments :=
      slashed_eq_self (by simp [inner])
    have cut : (Text.splitOn '/' ('/' :: Text.joinWith '/' segments)).filter keeps = segments := by
      simp only [Text.splitOn, if_true]
      rw [List.filter_cons_of_neg (by decide), filter_splitOn_joinWith proper]
    simp only [clean, spell, if_true, same, cut]
    rw [if_pos (by simp)]

/-- The canonical spelling of a canonical spelling is that spelling. -/
@[simp]
theorem clean_clean (raw : Text) : clean (clean raw) = clean raw :=
  clean_spell fun _ mem => isSegment_of_mem_kept mem

end Path

/-- A path in its canonical spelling. -/
structure Path where
  /-- The path as text. -/
  text : Text
  /-- Reading the text again changes nothing. -/
  clean_text : Path.clean text = text
  deriving DecidableEq

namespace Path

/-- Any text read as a path. -/
def ofText (raw : Text) : Path := ⟨clean raw, clean_clean raw⟩

instance : Inhabited Path := ⟨ofText []⟩

/-- The path as a string, for messages. -/
def toString (path : Path) : String := path.text.toString

instance : ToString Path := ⟨toString⟩

/-- The path without any segment. -/
def empty : Path := ofText []

/-- Whether the path has no text at all. -/
def isEmpty (path : Path) : Bool := path.text.isEmpty

/-- Whether the path starts at the top of the disk. -/
def isAbsolute (path : Path) : Bool := path.text.head? == some '/'

/-- The segments of the path, in order. -/
def segments (path : Path) : List Text := (Text.splitOn '/' path.text).filter (!·.isEmpty)

/-- The path extended by a text, which may bring several segments. Extending the
empty path reads the text alone. -/
def join (path : Path) (more : Text) : Path :=
  if path.isEmpty then ofText more else ofText (path.text ++ '/' :: more)

/-- The text up to and including its last slash. -/
def upToLastSlash (path : Path) : Text := Text.dropEndWhile (· ≠ '/') path.text

/-- The directory that holds the path, if its text names one. -/
def parent? (path : Path) : Option Path :=
  match path.upToLastSlash with
  | [] => none
  | [_] => if path.text.length > 1 then some (ofText ['/']) else none
  | c :: d :: more => some (ofText (c :: d :: more).dropLast)

/-- The last segment, unless there is none. -/
def name? (path : Path) : Option Text :=
  match Text.takeEndWhile (· ≠ '/') path.text with
  | [] => none
  | c :: more => some (c :: more)

/-- What follows the last dot of a name, unless the name starts with that dot. -/
def extensionOf? (name : Text) : Option Text :=
  match Text.dropEndWhile (· ≠ '.') name with
  | [] => none
  | [_] => none
  | _ :: _ :: _ => some (Text.takeEndWhile (· ≠ '.') name)

/-- What follows the last dot of the last segment, unless it starts with that dot. -/
def extension? (path : Path) : Option Text := path.name?.bind extensionOf?

/-- What remains of a path after a leading run of segments, given as text. Removing
the whole path leaves the empty path. -/
def strip? (path : Path) (lead : Text) : Option Path :=
  let lead := ofText lead
  if lead.isEmpty then
    some path
  else if path = lead then
    some empty
  else
    (Text.after? lead.text path.text).bind fun rest =>
      if lead.text.getLast? = some '/' then
        some (ofText rest)
      else
        (Text.after? ['/'] rest).map ofText

/-- Whether the path starts with a run of segments, given as text. -/
def startsWith (path : Path) (lead : Text) : Bool := (path.strip? lead).isSome

/-- The path as seen from a directory above it. -/
def relativeTo? (path base : Path) : Option Path := path.strip? base.text

/-- Whether the segments of a text occur next to each other in the path. -/
def containsRun (path : Path) (run : Text) : Bool :=
  !(ofText run).segments.isEmpty && Text.occurs (ofText run).segments path.segments

/-- Paths are ordered by their texts, character by character. -/
def before (left right : Path) : Bool := decide (left.text < right.text)

/-! ## Texts of paths -/

@[simp]
theorem text_ofText (raw : Text) : (ofText raw).text = clean raw := rfl

/-- Reading the text of a path gives the path. -/
@[simp]
theorem ofText_text (path : Path) : ofText path.text = path := by
  cases path with
  | mk text clean_text => simp [ofText, clean_text]

theorem ext_text {left right : Path} (same : left.text = right.text) : left = right := by
  rw [← ofText_text left, ← ofText_text right, same]

end Path

end DistDirectives
