import DistDirectives.Document.Yaml.Scalar

/-!
# Tokens of YAML texts

A token is a mark or a scalar of a text, or a place where its indentation opens or
closes a collection. This file holds the tokens that are read from one place of a text:
names, tags and the directives in front of a document.
-/

namespace DistDirectives.Document.Yaml

/-- A tag is written as a handle, which the directives of a document explain, and what
follows it. Its octets are kept as the characters of their numbers, up to a first one
that is zero. -/
structure Tag where
  handle : Text
  suffix : Text
  deriving DecidableEq

/-- What a text consists of. -/
inductive Token where
  /-- The version that a document asks for. -/
  | version (major minor : Nat)
  /-- What a handle of tags stands for. -/
  | handle (handle meaning : Text)
  | documentStart
  | documentEnd
  /-- A list whose items are marked line by line. -/
  | openItems
  /-- A table whose entries are written line by line. -/
  | openEntries
  /-- The end of what was opened last by its indentation. -/
  | close
  | openFlowList
  | closeFlowList
  | openFlowTable
  | closeFlowTable
  | item
  | comma
  | key
  | value
  | alias (name : Text)
  | anchor (name : Text)
  | tag (tag : Tag)
  | scalar (content : Text) (isPlain : Bool)
  deriving DecidableEq

/-! ## Names -/

/-- Whether a name can end where a text begins. -/
def endsName (text : Text) : Bool :=
  endsWord text || text.head?.any "?:,]\x7d%@\x60".toList.contains

/-- A name behind its mark, and the cursor behind it. -/
def name? (cursor : Cursor) : Option (Text × Cursor) :=
  let start := cursor.skip 1
  let name := start.rest.takeWhile isNameChar
  let behind := start.skip name.length
  if name.isEmpty || !endsName behind.rest then none else some (name, behind)

/-! ## Tags -/

/-- The octet that an escape writes behind its percent sign. -/
def octet? (text : Text) : Option (Nat × Text) := Decimal.hexDigits? 2 0 text

/-- How many octets encode a character, by the first of them. -/
def encodedLength? (octet : Nat) : Option Nat :=
  if octet < 0x80 then some 1
  else if 0xC0 ≤ octet ∧ octet < 0xE0 then some 2
  else if 0xE0 ≤ octet ∧ octet < 0xF0 then some 3
  else if 0xF0 ≤ octet ∧ octet < 0xF8 then some 4
  else none

/-- Escaped octets that continue the encoding of a character. -/
def laterOctets? : Nat → Text → Option Text
  | 0, _ => some []
  | count + 1, '%' :: rest => do
    let (octet, rest) ← octet? rest
    if 0x80 ≤ octet ∧ octet < 0xC0 then
      return Char.ofNat octet :: (← laterOctets? count rest)
    else
      none
  | _ + 1, _ => none

/-- The escaped octets of the character at the beginning of a text. -/
def escapedOctets? : Text → Option Text
  | '%' :: rest => do
    let (octet, rest) ← octet? rest
    let length ← encodedLength? octet
    return Char.ofNat octet :: (← laterOctets? (length - 1) rest)
  | _ => none

/-- The characters of tags outside brackets. -/
def isTagChar (c : Char) : Bool :=
  isNameChar c || ";/?:@&=+$.%!~*'()".toList.contains c

/-- The characters of tags that stand in brackets or in a directive. -/
def isWideTagChar (c : Char) : Bool :=
  isTagChar c || c = ',' || c = '[' || c = ']'

/-- The part of a tag at the cursor, and the cursor behind it. -/
def tagPart? (p : Char → Bool) : Nat → Cursor → Option (Text × Cursor)
  | 0, cursor => some ([], cursor)
  | bound + 1, cursor =>
    match cursor.rest with
    | [] => some ([], cursor)
    | c :: _ =>
      if !p c then some ([], cursor)
      else if c = '%' then do
        let octets ← escapedOctets? cursor.rest
        let (more, cursor) ← tagPart? p bound (cursor.skip (3 * octets.length))
        return (octets ++ more, cursor)
      else do
        let (more, cursor) ← tagPart? p bound (cursor.skip 1)
        return (c :: more, cursor)

/-- The octets in front of the first one that is zero. -/
def beforeZero (octets : Text) : Text := octets.takeWhile (· ≠ '\x00')

/-- The part of a tag at the cursor, which may not be missing. -/
def someTagPart? (p : Char → Bool) (cursor : Cursor) : Option (Text × Cursor) := do
  let (part, cursor) ← tagPart? p (cursor.rest.length + 1) cursor
  if part.isEmpty then none else return (beforeZero part, cursor)

/-- The handle at the cursor: an exclamation mark, and a name between two of them if the
second one is there. -/
def tagHandle? (cursor : Cursor) : Option (Text × Cursor) :=
  if cursor.head? = some '!' then
    let behind := cursor.skip 1
    let name := behind.rest.takeWhile isNameChar
    let behind := behind.skip name.length
    if behind.head? = some '!' then some ('!' :: (name ++ ['!']), behind.skip 1)
    else some ('!' :: name, behind)
  else
    none

/-- Whether a handle is closed by a second exclamation mark. -/
def isClosedHandle (handle : Text) : Bool :=
  1 < handle.length && handle.getLast? = some '!'

/-- A tag in its various forms, and the cursor behind it. -/
def writtenTag? (cursor : Cursor) : Option (Tag × Cursor) :=
  if cursor.rest.take 2 = ['!', '<'] then do
    let (suffix, cursor) ← someTagPart? isWideTagChar (cursor.skip 2)
    if cursor.head? = some '>' then return (⟨[], suffix⟩, cursor.skip 1) else none
  else do
    let (handle, behind) ← tagHandle? cursor
    if isClosedHandle handle then
      let (suffix, behind) ← someTagPart? isTagChar behind
      return (⟨handle, suffix⟩, behind)
    else
      let (rest, behind) ← tagPart? isTagChar (behind.rest.length + 1) behind
      let suffix := handle.drop 1 ++ beforeZero rest
      return (if suffix.isEmpty then ⟨[], ['!']⟩ else ⟨['!'], suffix⟩, behind)

/-- A tag that is followed by a blank, or by a comma in flow style. -/
def tag? (inFlow : Bool) (cursor : Cursor) : Option (Tag × Cursor) := do
  let (tag, behind) ← writtenTag? cursor
  if endsWord behind.rest || (inFlow && behind.head? = some ',') then
    return (tag, behind)
  else
    none

/-! ## Directives -/

/-- A part of a version, of at most nine digits. -/
def versionPart? (cursor : Cursor) : Option (Nat × Cursor) :=
  let digits := cursor.rest.takeWhile Char.isDigit
  if digits.isEmpty || 9 < digits.length then none
  else some (Decimal.ofDigits digits, cursor.skip digits.length)

/-- The version behind the name of its directive. -/
def version? (cursor : Cursor) : Option (Token × Cursor) := do
  let (major, cursor) ← versionPart? (cursor.skipWhile isBlank)
  if cursor.head? = some '.' then
    let (minor, cursor) ← versionPart? (cursor.skip 1)
    return (.version major minor, cursor)
  else
    none

/-- A handle and its meaning behind the name of their directive. -/
def handleMeaning? (cursor : Cursor) : Option (Token × Cursor) := do
  let (handle, cursor) ← tagHandle? (cursor.skipWhile isBlank)
  if handle = ['!'] || isClosedHandle handle then
    if cursor.head?.any isBlank then
      let (meaning, cursor) ← someTagPart? isWideTagChar (cursor.skipWhile isBlank)
      if endsWord cursor.rest then return (.handle handle meaning, cursor) else none
    else
      none
  else
    none

/-- A directive, and the cursor behind its line. -/
def directive? (cursor : Cursor) : Option (Token × Cursor) := do
  let start := cursor.skip 1
  let name := start.rest.takeWhile isNameChar
  let behind := start.skip name.length
  if endsWord behind.rest then
    let (token, behind) ←
      if name = "YAML".toList then version? behind
      else if name = "TAG".toList then handleMeaning? behind
      else none
    let behind := skipComment behind
    if endsLine behind.rest then return (token, behind.takeBreak.2) else none
  else
    none

end DistDirectives.Document.Yaml
