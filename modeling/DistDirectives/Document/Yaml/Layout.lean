import DistDirectives.Document.Yaml.Token

/-!
# The layout of YAML texts

What a line means depends on where it begins. Outside flow style a collection opens
where a first item or key stands further right than all around it, and closes where a
later line begins further left.

A key shows only by the colon behind it. So the place of every token that could begin
a key is kept until a colon follows on the same line, not too far away; then the key,
and the table that it opens, are put in front of that token.
-/

namespace DistDirectives.Document.Yaml

/-- A place where a key can have begun. -/
structure KeyPlace where
  /-- The number of tokens in front of it. -/
  position : Nat
  /-- Only a key can stand there. -/
  required : Bool
  /-- The number of bytes in front of it. -/
  index : Nat
  line : Nat
  column : Nat

/-- What is known of a text up to a place. -/
structure Layout where
  cursor : Cursor
  /-- The columns of the open collections, the innermost first. -/
  columns : List Nat := []
  /-- Whether a key can begin at the place. -/
  allowsKey : Bool := true
  /-- The last place of a key, for the text and for each open collection in flow style,
  the innermost first. -/
  keyPlaces : List (Option KeyPlace) := [none]
  tokens : Array Token := #[]

namespace Layout

/-- Whether the place is inside of a collection in flow style. -/
def inFlow (layout : Layout) : Bool := !(layout.keyPlaces.drop 1).isEmpty

/-- The column of the innermost open collection. -/
def column (layout : Layout) : Int := (layout.columns.head?.map Int.ofNat).getD (-1)

/-- The layout with a token more. -/
def push (layout : Layout) (token : Token) : Layout :=
  { layout with tokens := layout.tokens.push token }

/-- The layout with a token more at a position. -/
def insert (layout : Layout) (position : Nat) (token : Token) : Layout :=
  { layout with tokens := layout.tokens.insertIdxIfInBounds position token }

/-- Opens a collection at a column and a position if that stands further right than the
collections around it. -/
def indent (layout : Layout) (column position : Nat) (token : Token) : Layout :=
  if layout.inFlow || column ≤ layout.column then layout
  else { layout with columns := column :: layout.columns }.insert position token

/-- Closes the collections that stand further right than a column. -/
def dedent (layout : Layout) (column : Int) : Layout :=
  if layout.inFlow then layout
  else
    let closed := layout.columns.takeWhile fun outer => column < Int.ofNat outer
    { layout with
      columns := layout.columns.drop closed.length
      tokens := layout.tokens ++ Array.replicate closed.length .close }

/-- Forgets the last place of a key; a key that was required there is missing. -/
def dropKey? (layout : Layout) : Option Layout :=
  match layout.keyPlaces with
  | some place :: rest =>
    if place.required then none else some { layout with keyPlaces := none :: rest }
  | _ => some layout

/-- Keeps the place as one where a key can have begun. -/
def keepKey? (layout : Layout) : Option Layout :=
  if layout.allowsKey then do
    let layout ← layout.dropKey?
    let cursor := layout.cursor
    let place : KeyPlace :=
      { position := layout.tokens.size
        required := !layout.inFlow && layout.column = cursor.column
        index := cursor.index
        line := cursor.line
        column := cursor.column }
    return { layout with keyPlaces := some place :: layout.keyPlaces.drop 1 }
  else
    some layout

/-- Whether a key that began at a place would have shown up to the cursor. -/
def isPast (cursor : Cursor) (place : KeyPlace) : Bool :=
  place.line < cursor.line || place.index + 1024 < cursor.index

/-- Passes over blanks, comments and line breaks, and over a mark of the byte order at
the beginning of a line. Where a key can begin, a tab is no blank outside flow style. -/
def skipBlanks : Nat → Layout → Layout
  | 0, layout => layout
  | bound + 1, layout =>
    let cursor := layout.cursor
    let cursor :=
      if cursor.column = 0 && cursor.head? = some '\ufeff' then cursor.skip 1 else cursor
    let cursor := cursor.skipWhile fun c =>
      c = ' ' || (c = '\t' && (layout.inFlow || !layout.allowsKey))
    let cursor := if cursor.head? = some '#' then cursor.skipWhile (!isBreak ·) else cursor
    if cursor.head?.any isBreak then
      skipBlanks bound
        { layout with
          cursor := cursor.takeBreak.2
          allowsKey := layout.allowsKey || !layout.inFlow }
    else
      { layout with cursor }

/-! ## Tokens -/

/-- A mark of one or more characters, after which a key can or cannot begin. -/
def mark (layout : Layout) (token : Token) (length : Nat) (allowsKey : Bool) : Layout :=
  { layout with cursor := layout.cursor.skip length, allowsKey }.push token

/-- A token that is read from the cursor, after which a key can or cannot begin. -/
def advance (layout : Layout) (token : Token) (cursor : Cursor) (allowsKey : Bool) : Layout :=
  { layout with cursor, allowsKey }.push token

/-- The mark of an item or of a key with a mark of its own. Outside flow style it opens
a collection. -/
def leadingMark? (layout : Layout) (opening token : Token) (allowsKey : Bool) :
    Option Layout := do
  let layout ←
    if layout.inFlow then some layout
    else if layout.allowsKey then
      some (layout.indent layout.cursor.column layout.tokens.size opening)
    else
      none
  return (← layout.dropKey?).mark token 1 allowsKey

/-- The colon behind a key that began at a place. -/
def colonBehind (layout : Layout) (place : KeyPlace) : Layout :=
  let layout := layout.insert place.position .key
  let layout := layout.indent place.column place.position .openEntries
  { layout with keyPlaces := none :: layout.keyPlaces.drop 1 }.mark .value 1 false

/-- The colon behind a key that has its own mark, or behind no key at all. -/
def loneColon? (layout : Layout) : Option Layout :=
  if layout.inFlow then
    some (layout.mark .value 1 false)
  else if layout.allowsKey then
    some ((layout.indent layout.cursor.column layout.tokens.size .openEntries).mark .value 1 true)
  else
    none

/-- The colon in front of a value. -/
def colon? (layout : Layout) : Option Layout :=
  match layout.keyPlaces with
  | some place :: _ =>
    if isPast layout.cursor place then do
      (← layout.dropKey?).loneColon?
    else
      some (layout.colonBehind place)
  | _ => layout.loneColon?

/-- The mark that opens a collection in flow style. -/
def openFlow? (layout : Layout) (token : Token) : Option Layout := do
  let layout ← layout.keepKey?
  return { layout with keyPlaces := none :: layout.keyPlaces }.mark token 1 true

/-- The mark that closes a collection in flow style. -/
def closeFlow? (layout : Layout) (token : Token) : Option Layout := do
  let layout ← layout.dropKey?
  let keyPlaces := if layout.inFlow then layout.keyPlaces.drop 1 else layout.keyPlaces
  return { layout with keyPlaces }.mark token 1 false

/-- What closes all that is open outside flow style, in front of the marks of
documents. -/
def closeAll? (layout : Layout) : Option Layout :=
  (layout.dedent (-1)).dropKey?

/-- Whether a plain scalar can begin with a character. -/
def beginsPlain (inFlow : Bool) (c : Char) (rest : Text) : Bool :=
  !(isBlank c || isBreak c || "-?:,[]\x7b\x7d#&*!|>'\"%@\x60".toList.contains c) ||
    (c = '-' && !rest.head?.any isBlank) ||
    (!inFlow && (c = '?' || c = ':') && !endsWord rest)

/-- The token that begins with a character, and what it makes of the layout. The number
bounds how many characters there are. -/
def token? (layout : Layout) (bound : Nat) (c : Char) (rest : Text) : Option Layout :=
  let cursor := layout.cursor
  if cursor.column = 0 && c = '%' then do
    let layout ← layout.closeAll?
    let (token, cursor) ← directive? cursor
    return layout.advance token cursor false
  else if cursor.atDocumentMark then do
    let layout ← layout.closeAll?
    return layout.mark (if c = '-' then .documentStart else .documentEnd) 3 false
  else if c = '[' then
    layout.openFlow? .openFlowList
  else if c = '\x7b' then
    layout.openFlow? .openFlowTable
  else if c = ']' then
    layout.closeFlow? .closeFlowList
  else if c = '\x7d' then
    layout.closeFlow? .closeFlowTable
  else if c = ',' then do
    return (← layout.dropKey?).mark .comma 1 true
  else if c = '-' && endsWord rest then
    layout.leadingMark? .openItems .item true
  else if c = '?' && (layout.inFlow || endsWord rest) then
    layout.leadingMark? .openEntries .key !layout.inFlow
  else if c = ':' && (layout.inFlow || endsWord rest) then
    layout.colon?
  else if c = '*' then do
    let layout ← layout.keepKey?
    let (name, cursor) ← name? cursor
    return layout.advance (.alias name) cursor false
  else if c = '&' then do
    let layout ← layout.keepKey?
    let (name, cursor) ← name? cursor
    return layout.advance (.anchor name) cursor false
  else if c = '!' then do
    let layout ← layout.keepKey?
    let (tag, cursor) ← tag? layout.inFlow cursor
    return layout.advance (.tag tag) cursor false
  else if (c = '|' || c = '>') && !layout.inFlow then do
    let layout ← layout.dropKey?
    let (content, cursor) ← block? (c = '>') layout.column bound cursor
    return layout.advance (.scalar content false) cursor true
  else if c = '\'' || c = '"' then do
    let layout ← layout.keepKey?
    let (content, cursor) ← quoted? (c = '"') bound cursor
    return layout.advance (.scalar content false) cursor false
  else if beginsPlain layout.inFlow c rest then do
    let layout ← layout.keepKey?
    let (content, broken, cursor) ← plain? layout.inFlow (layout.column + 1).toNat bound cursor
    return layout.advance (.scalar content true) cursor broken
  else
    none

/-- The tokens of a text from a place on. Every token is at least one character long,
which bounds their number. -/
def tokens? : Nat → Layout → Option (Array Token)
  | 0, _ => none
  | bound + 1, layout => do
    let layout := layout.skipBlanks bound
    let layout := layout.dedent layout.cursor.column
    match layout.cursor.rest with
    | [] => return (← layout.closeAll?).tokens
    | c :: rest => tokens? bound (← layout.token? bound c rest)

end Layout

/-- The tokens of a text. -/
def tokens? (text : Text) : Option (List Token) :=
  if text.all isAllowed then
    (Layout.tokens? (text.length + 2) { cursor := { rest := text } }).map Array.toList
  else
    none

end DistDirectives.Document.Yaml
