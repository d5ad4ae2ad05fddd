import DistDirectives.Document.Decimal
import DistDirectives.Document.Yaml.Cursor

/-!
# Scalars of YAML texts

A scalar is plain, quoted, or a block of lines. Plain and quoted scalars can extend
over several lines and are folded: a single line break stands for a space, and of
several breaks the first one is dropped. Blocks keep their lines, or fold them too.
-/

namespace DistDirectives.Document.Yaml

/-! ## Folding -/

/-- The blanks and breaks between two words of a scalar. -/
structure Gap where
  /-- There was a line break. -/
  broken : Bool := false
  /-- The blanks before any line break. -/
  blanks : Text := []
  firstBreak : Text := []
  laterBreaks : Text := []

/-- What a gap stands for. -/
def Gap.fold (gap : Gap) : Text :=
  if gap.broken then
    if gap.firstBreak.head? = some '\n' then
      if gap.laterBreaks.isEmpty then [' '] else gap.laterBreaks
    else
      gap.firstBreak ++ gap.laterBreaks
  else
    gap.blanks

/-- The breaks at the cursor with blanks between them, and the cursor behind them. A tab
before the indentation of a plain scalar is refused. The number bounds how many breaks
there are. -/
def laterBreaks? (indentation : Option Nat) : Nat → Cursor → Option (Text × Cursor)
  | 0, cursor => some ([], cursor)
  | bound + 1, cursor =>
    let blanks := cursor.rest.takeWhile isBlank
    if indentation.any fun column => (blanks.take (column - cursor.column)).contains '\t' then
      none
    else
      let cursor := cursor.skip blanks.length
      if cursor.head?.any isBreak then do
        let (taken, cursor) := cursor.takeBreak
        let (more, cursor) ← laterBreaks? indentation bound cursor
        return (taken ++ more, cursor)
      else
        some ([], cursor)

/-- The gap at the cursor, which may lie behind a break that is dropped, and the cursor
behind it. -/
def takeGap? (indentation : Option Nat) (bound : Nat) (broken : Bool) (cursor : Cursor) :
    Option (Gap × Cursor) :=
  if broken then do
    let (laterBreaks, cursor) ← laterBreaks? indentation bound cursor
    return ({ broken, laterBreaks }, cursor)
  else
    let blanks := cursor.rest.takeWhile isBlank
    let cursor := cursor.skip blanks.length
    if cursor.head?.any isBreak then do
      let (firstBreak, cursor) := cursor.takeBreak
      let (laterBreaks, cursor) ← laterBreaks? indentation bound cursor
      return ({ broken := true, firstBreak, laterBreaks }, cursor)
    else
      some ({ blanks }, cursor)

/-! ## Plain scalars -/

/-- The marks of collections in flow style. -/
def isFlowMark (c : Char) : Bool := c = ',' || c = '[' || c = ']' || c = '\x7b' || c = '\x7d'

/-- A word of a plain scalar at the beginning of a text. In flow style a colon before a
mark is refused. -/
def plainWord? (inFlow : Bool) : Text → Option Text
  | [] => some []
  | c :: rest =>
    if isBlank c || isBreak c then some []
    else if inFlow && c = ':' && rest.head?.any fun d => isFlowMark d || d = '?' then none
    else if (c = ':' && endsWord rest) || (inFlow && isFlowMark c) then some []
    else (plainWord? inFlow rest).map (c :: ·)

/-- The rest of a plain scalar behind a gap, whether it ends behind a line break, and
the cursor behind it. The number bounds how many characters there are. -/
def plainRest? (inFlow : Bool) (indentation : Nat) : Nat → Gap → Cursor →
    Option (Text × Bool × Cursor)
  | 0, gap, cursor => some ([], gap.broken, cursor)
  | bound + 1, gap, cursor =>
    if cursor.atDocumentMark || cursor.head? = some '#' then
      some ([], gap.broken, cursor)
    else do
      let piece ← plainWord? inFlow cursor.rest
      let after := cursor.skip piece.length
      if piece.isEmpty then
        return ([], gap.broken, cursor)
      else if after.head?.any fun c => isBlank c || isBreak c then
        let (next, behind) ← takeGap? (some indentation) bound false after
        if !inFlow && behind.column < indentation then
          return (gap.fold ++ piece, next.broken, behind)
        else
          let (more, broken, behind) ← plainRest? inFlow indentation bound next behind
          return (gap.fold ++ piece ++ more, broken, behind)
      else
        return (gap.fold ++ piece, false, after)

/-- A plain scalar, whether it ends behind a line break, and the cursor behind it. -/
def plain? (inFlow : Bool) (indentation bound : Nat) (cursor : Cursor) :
    Option (Text × Bool × Cursor) :=
  plainRest? inFlow indentation bound {} cursor

/-! ## Quoted scalars -/

/-- The character that an escape writes, by the letter behind the backslash. -/
def simpleEscape? : Char → Option Char
  | '0' => some '\x00'
  | 'a' => some '\x07'
  | 'b' => some '\x08'
  | 't' => some '\t'
  | '\t' => some '\t'
  | 'n' => some '\n'
  | 'v' => some '\x0b'
  | 'f' => some '\x0c'
  | 'r' => some '\r'
  | 'e' => some '\x1b'
  | ' ' => some ' '
  | '"' => some '"'
  | '/' => some '/'
  | '\\' => some '\\'
  | 'N' => some '\x85'
  | '_' => some '\xa0'
  | 'L' => some '\u2028'
  | 'P' => some '\u2029'
  | _ => none

/-- How many digits write a code point, by the letter behind the backslash. -/
def codePointDigits? : Char → Option Nat
  | 'x' => some 2
  | 'u' => some 4
  | 'U' => some 8
  | _ => none

/-- The character that an escape writes, without its backslash, and how many characters
it has. -/
def escape? : Text → Option (Char × Nat)
  | [] => none
  | c :: rest =>
    match codePointDigits? c with
    | some count => do
      let (value, _) ← Decimal.hexDigits? count 0 rest
      if value < 0xD800 ∨ (0xDFFF < value ∧ value < 0x110000) then
        return (Char.ofNat value, count + 1)
      else
        none
    | none => (simpleEscape? c).map fun written => (written, 1)

/-- A run of a quoted scalar without unescaped blanks and breaks, whether it ends with
an escaped break, and the cursor behind it. The number bounds how many characters there
are. -/
def quotedRun? (isDouble : Bool) : Nat → Cursor → Option (Text × Bool × Cursor)
  | 0, _ => none
  | bound + 1, cursor =>
    match cursor.rest with
    | [] => some ([], false, cursor)
    | c :: rest =>
      if isBlank c || isBreak c then
        some ([], false, cursor)
      else if c = '\'' && !isDouble then
        if rest.head? = some '\'' then do
          let (more, escaped, cursor) ← quotedRun? isDouble bound (cursor.skip 2)
          return ('\'' :: more, escaped, cursor)
        else
          some ([], false, cursor)
      else if c = '"' && isDouble then
        some ([], false, cursor)
      else if c = '\\' && isDouble then
        if rest.head?.any isBreak then
          some ([], true, (cursor.skip 1).takeBreak.2)
        else do
          let (written, length) ← escape? rest
          let (more, escaped, cursor) ← quotedRun? isDouble bound (cursor.skip (length + 1))
          return (written :: more, escaped, cursor)
      else do
        let (more, escaped, cursor) ← quotedRun? isDouble bound (cursor.skip 1)
        return (c :: more, escaped, cursor)

/-- The mark around a quoted scalar. -/
def quotationMark (isDouble : Bool) : Char := if isDouble then '"' else '\''

/-- The content of a quoted scalar behind its opening mark, and the cursor behind its
closing one. -/
def quotedBody? (isDouble : Bool) : Nat → Cursor → Option (Text × Cursor)
  | 0, _ => none
  | bound + 1, cursor =>
    if cursor.atDocumentMark || cursor.rest.isEmpty then
      none
    else do
      let (run, escaped, behind) ← quotedRun? isDouble bound cursor
      if behind.head? = some (quotationMark isDouble) then
        return (run, behind.skip 1)
      else
        let (gap, behind) ← takeGap? none bound escaped behind
        let (more, behind) ← quotedBody? isDouble bound behind
        return (run ++ gap.fold ++ more, behind)

/-- A quoted scalar and the cursor behind it. -/
def quoted? (isDouble : Bool) (bound : Nat) (cursor : Cursor) : Option (Text × Cursor) :=
  quotedBody? isDouble bound (cursor.skip 1)

/-! ## Blocks -/

/-- What becomes of the breaks at the end of a block. -/
inductive Chomping where
  | strip
  | clip
  | keep
  deriving DecidableEq

/-- The breaks between two lines of a block whose indentation is known or, as zero, not
yet; with them the greatest column that was met, and the cursor behind them. -/
def takeBreaks? (indentation : Nat) : Nat → Nat → Cursor → Option (Text × Nat × Cursor)
  | 0, deepest, cursor => some ([], deepest, cursor)
  | bound + 1, deepest, cursor =>
    let spaces := (cursor.rest.takeWhile (· = ' ')).length
    let cursor := cursor.skip (if indentation = 0 then spaces
      else min spaces (indentation - cursor.column))
    let deepest := max deepest cursor.column
    if (indentation = 0 || cursor.column < indentation) && cursor.head? = some '\t' then
      none
    else if cursor.head?.any isBreak then do
      let (taken, cursor) := cursor.takeBreak
      let (more, deepest, cursor) ← takeBreaks? indentation bound deepest cursor
      return (taken ++ more, deepest, cursor)
    else
      some ([], deepest, cursor)

/-- What is between two lines of a block. -/
def betweenLines (folds : Bool) (firstBreak laterBreaks : Text) (blankBefore blankAfter : Bool) :
    Text :=
  if folds && firstBreak.head? = some '\n' && !blankBefore && !blankAfter then
    if laterBreaks.isEmpty then [' '] else laterBreaks
  else
    firstBreak ++ laterBreaks

/-- The lines of a block from a line on, the breaks behind them, and the cursor behind
all. Before the line are a break, more breaks, and a line that may have begun with a
blank. -/
def blockLines? (folds : Bool) (indentation : Nat) : Nat → Text → Text → Bool → Cursor →
    Option (Text × Text × Text × Cursor)
  | 0, firstBreak, laterBreaks, _, cursor => some ([], firstBreak, laterBreaks, cursor)
  | bound + 1, firstBreak, laterBreaks, blankBefore, cursor =>
    if cursor.column = indentation && !cursor.rest.isEmpty then do
      let blankHere := cursor.head?.any isBlank
      let line := cursor.rest.takeWhile (!isBreak ·)
      let (nextBreak, behind) := (cursor.skip line.length).takeBreak
      let (nextBreaks, _, behind) ← takeBreaks? indentation bound 0 behind
      let (more, first, later, behind) ←
        blockLines? folds indentation bound nextBreak nextBreaks blankHere behind
      return (betweenLines folds firstBreak laterBreaks blankBefore blankHere ++ line ++ more,
        first, later, behind)
    else
      some ([], firstBreak, laterBreaks, cursor)

/-- The indicators of a block: its chomping, the indentation that it asks for, and the
cursor behind them. -/
def blockIndicators? (cursor : Cursor) : Option (Chomping × Nat × Cursor) :=
  let chomping? : Char → Option Chomping := fun
    | '+' => some .keep
    | '-' => some .strip
    | _ => none
  let digit? : Char → Option Nat := fun c => if c.isDigit then some (c.toNat - '0'.toNat) else none
  match cursor.rest with
  | c :: d :: _ =>
    match chomping? c, digit? c with
    | some chomping, _ =>
      match digit? d with
      | some 0 => none
      | some digit => some (chomping, digit, cursor.skip 2)
      | none => some (chomping, 0, cursor.skip 1)
    | none, some 0 => none
    | none, some digit =>
      match chomping? d with
      | some chomping => some (chomping, digit, cursor.skip 2)
      | none => some (.clip, digit, cursor.skip 1)
    | none, none => some (.clip, 0, cursor)
  | [c] =>
    match chomping? c, digit? c with
    | some chomping, _ => some (chomping, 0, cursor.skip 1)
    | none, some 0 => none
    | none, some digit => some (.clip, digit, cursor.skip 1)
    | none, none => some (.clip, 0, cursor)
  | [] => some (.clip, 0, cursor)

/-- The cursor behind the blanks and the comment at its place. -/
def skipComment (cursor : Cursor) : Cursor :=
  let cursor := cursor.skipWhile isBlank
  if cursor.head? = some '#' then cursor.skipWhile (!isBreak ·) else cursor

/-- A block in a collection of a given indentation, and the cursor behind it. -/
def block? (folds : Bool) (parent : Int) (bound : Nat) (cursor : Cursor) :
    Option (Text × Cursor) := do
  let (chomping, asked, cursor) ← blockIndicators? (cursor.skip 1)
  let cursor := skipComment cursor
  if !endsLine cursor.rest then
    none
  else
    let (_, cursor) := cursor.takeBreak
    let known := if asked = 0 then 0 else (max parent 0).toNat + asked
    let (breaks, deepest, cursor) ← takeBreaks? known bound 0 cursor
    let indentation := if known = 0 then max (max deepest (parent + 1).toNat) 1 else known
    let (lines, first, later, cursor) ←
      blockLines? folds indentation bound [] breaks false cursor
    let ending := match chomping with
      | .strip => []
      | .clip => first
      | .keep => first ++ later
    return (lines ++ ending, cursor)

end DistDirectives.Document.Yaml
