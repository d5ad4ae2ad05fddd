import DistDirectives.Directive
import DistDirectives.Text.Blank

/-!
# Bodies of line replacements

After its name a line replacement has a replacement in backticks, then possibly
`if` with a condition in single quotes, then possibly `else` with an alternative
in single quotes. Blanks separate the parts and may surround the whole. The
quoted texts end at the next quote, so they cannot hold their own quote.

Reading is deterministic: at each place only one part of the grammar can go on,
so no choice is ever taken back.
-/

namespace DistDirectives.Directive.Body

/-- The mark around replacements. -/
def backtick : Char := '\x60'

/-- The mark around conditions and alternatives. -/
def quote : Char := '\''

/-- A text between two marks, and what follows the second. -/
def delimited? (mark : Char) : Text → Option (Text × Text)
  | [] => none
  | c :: rest =>
    if c = mark then
      match rest.dropWhile (· ≠ mark) with
      | [] => none
      | _ :: after => some (rest.takeWhile (· ≠ mark), after)
    else
      none

/-- A keyword with a quoted text, both after blanks, and what follows. -/
def clause? (keyword text : Text) : Option (Text × Text) := do
  let atKeyword ← Text.afterBlanks? text
  let afterKeyword ← Text.after? keyword atKeyword
  let atQuote ← Text.afterBlanks? afterKeyword
  delimited? quote atQuote

/-- A clause that may be missing, and what follows it. -/
def optionalClause (keyword text : Text) : Option Text × Text :=
  match clause? keyword text with
  | some (content, rest) => (some content, rest)
  | none => (none, text)

/-- The keyword of the condition. -/
def ifKeyword : Text := "if".toList

/-- The keyword of the alternative. -/
def elseKeyword : Text := "else".toList

/-- The line replacement that a body describes, if the body obeys the grammar. -/
def read? (body : Text) : Option Directive := do
  let (replacement, rest) ← delimited? backtick (Text.trimStart body)
  let (condition, rest) := optionalClause ifKeyword rest
  let (alternative, rest) := optionalClause elseKeyword rest
  if rest.all Text.isBlank then
    some (.replaceLine replacement condition alternative)
  else
    none

end DistDirectives.Directive.Body
