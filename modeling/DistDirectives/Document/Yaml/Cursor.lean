import DistDirectives.Text.Utf8

/-!
# Reading places of YAML texts

Indentation carries meaning, so reading keeps track of the line and the column. A
cursor is a place in a text: what is left of it, and where that begins.
-/

namespace DistDirectives.Document.Yaml

/-- A place in a text. -/
structure Cursor where
  rest : Text
  /-- The number of bytes before the place. -/
  index : Nat := 0
  line : Nat := 0
  column : Nat := 0

/-- The blanks within a line. -/
def isBlank (c : Char) : Bool := c = ' ' || c = '\t'

/-- The characters that end a line. -/
def isBreak (c : Char) : Bool :=
  c = '\r' || c = '\n' || c = '\x85' || c = '\u2028' || c = '\u2029'

/-- Whether a text is at its end or begins with a blank or a line break. -/
def endsWord : Text → Bool
  | [] => true
  | c :: _ => isBlank c || isBreak c

/-- Whether a text is at its end or begins with a line break. -/
def endsLine : Text → Bool
  | [] => true
  | c :: _ => isBreak c

/-- The characters that a text may hold. -/
def isAllowed (c : Char) : Bool :=
  let n := c.toNat
  n = 0x9 || n = 0xA || n = 0xD || (0x20 ≤ n && n ≤ 0x7E) || n = 0x85 ||
    (0xA0 ≤ n && n ≤ 0xFFFD) || 0x10000 ≤ n

/-- The characters of names. -/
def isNameChar (c : Char) : Bool :=
  ('a' ≤ c && c ≤ 'z') || ('A' ≤ c && c ≤ 'Z') || ('0' ≤ c && c ≤ '9') || c = '-' || c = '_'

namespace Cursor

/-- The character at the cursor. -/
def head? (cursor : Cursor) : Option Char := cursor.rest.head?

/-- The cursor behind a number of characters of its line. -/
def skip (cursor : Cursor) (count : Nat) : Cursor :=
  { cursor with
    rest := cursor.rest.drop count
    index := cursor.index + Utf8.size (cursor.rest.take count)
    column := cursor.column + count }

/-- The cursor behind the characters of a class at its place. -/
def skipWhile (cursor : Cursor) (p : Char → Bool) : Cursor :=
  cursor.skip (cursor.rest.takeWhile p).length

/-- The break at the cursor as it is kept in scalars, and the cursor behind it. -/
def takeBreak (cursor : Cursor) : Text × Cursor :=
  match cursor.rest with
  | '\r' :: '\n' :: rest =>
    (['\n'], ⟨rest, cursor.index + 2, cursor.line + 1, 0⟩)
  | c :: rest =>
    (if c = '\u2028' ∨ c = '\u2029' then [c] else ['\n'],
      ⟨rest, cursor.index + Utf8.size [c], cursor.line + 1, 0⟩)
  | [] => ([], cursor)

/-- Whether a line starts at the cursor with the mark of a document. -/
def atDocumentMark (cursor : Cursor) : Bool :=
  cursor.column = 0 &&
    (cursor.rest.take 3 = ['-', '-', '-'] || cursor.rest.take 3 = ['.', '.', '.']) &&
    endsWord (cursor.rest.drop 3)

end Cursor

end DistDirectives.Document.Yaml
