import DistDirectives.Text

/-!
# Blank characters

Blank characters are the characters with Unicode's property `White_Space`. They
separate words and are trimmed from both ends of a text. Zero-width spaces and
the byte order mark are not blank.
-/

namespace DistDirectives.Text

/-- The ranges of code points of the blank characters, in increasing order, both
ends included. -/
def blankRanges : List (Nat × Nat) :=
  [(0x9, 0xD), (0x20, 0x20), (0x85, 0x85), (0xA0, 0xA0), (0x1680, 0x1680), (0x2000, 0x200A),
   (0x2028, 0x2029), (0x202F, 0x202F), (0x205F, 0x205F), (0x3000, 0x3000)]

/-- Whether a character is white space. -/
def isBlank (c : Char) : Bool :=
  blankRanges.any fun range => range.1 ≤ c.toNat && c.toNat ≤ range.2

/-- The text without the blanks at its beginning. -/
def trimStart (text : Text) : Text := text.dropWhile isBlank

/-- The text without the blanks at its end. -/
def trimEnd (text : Text) : Text := dropEndWhile isBlank text

/-- The text without the blanks at its two ends. -/
def trim (text : Text) : Text := trimEnd (trimStart text)

/-- What follows a run of blanks, of which there is at least one. -/
def afterBlanks? : Text → Option Text
  | [] => none
  | c :: rest => if isBlank c then some (trimStart rest) else none

/-! ## The table -/

example : (blankRanges.map fun range => range.2 + 1 - range.1).sum = 25 := by decide

end DistDirectives.Text
