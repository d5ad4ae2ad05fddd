import DistDirectives.Document
import DistDirectives.Document.Decimal

/-!
# JSON

A JSON text is one value with blanks around it. Numbers have no leading zeros, strings
hold no control characters, and nothing may follow a last comma.

Half of a surrogate pair and a number that exceeds every bound are accepted as far as
the grammar goes and yield an atom that cannot be held.
-/

namespace DistDirectives.Document.Json

/-- The blanks of the format. -/
def isBlank (c : Char) : Bool := c = ' ' || c = '\n' || c = '\t' || c = '\r'

/-- The text without the blanks at its beginning. -/
def skipBlanks (text : Text) : Text := text.dropWhile isBlank

/-- Four hexadecimal digits and what follows them. -/
def fourDigits? : Text → Option (Nat × Text)
  | a :: b :: c :: d :: rest => do
    let a ← Decimal.hexDigit? a
    let b ← Decimal.hexDigit? b
    let c ← Decimal.hexDigit? c
    let d ← Decimal.hexDigit? d
    return (((a * 16 + b) * 16 + c) * 16 + d, rest)
  | _ => none

/-- Whether a code unit is the first half of a pair. -/
def isHighHalf (unit : Nat) : Bool := 0xD800 ≤ unit && unit < 0xDC00

/-- Whether a code unit is the second half of a pair. -/
def isLowHalf (unit : Nat) : Bool := 0xDC00 ≤ unit && unit < 0xE000

/-- The character of a pair of halves. -/
def ofHalves (high low : Nat) : Char :=
  Char.ofNat (0x10000 + (high - 0xD800) * 0x400 + (low - 0xDC00))

/-- The character that a unit escape writes and what follows it. A half that is not
followed by the other one writes no character. -/
def unitEscape? (text : Text) : Option (Option Char × Text) := do
  let (unit, rest) ← fourDigits? text
  if isHighHalf unit then
    match rest with
    | '\\' :: 'u' :: more =>
      let (low, after) ← fourDigits? more
      if isLowHalf low then return (some (ofHalves unit low), after)
      else return (none, rest)
    | _ => return (none, rest)
  else if isLowHalf unit then
    return (none, rest)
  else
    return (some (Char.ofNat unit), rest)

/-- The character that an escape writes, without its backslash, and what follows. -/
def escape? : Text → Option (Option Char × Text)
  | '"' :: rest => some (some '"', rest)
  | '\\' :: rest => some (some '\\', rest)
  | '/' :: rest => some (some '/', rest)
  | 'b' :: rest => some (some '\x08', rest)
  | 'f' :: rest => some (some '\x0c', rest)
  | 'n' :: rest => some (some '\n', rest)
  | 'r' :: rest => some (some '\r', rest)
  | 't' :: rest => some (some '\t', rest)
  | 'u' :: rest => unitEscape? rest
  | _ => none

/-- The characters of a string behind its opening quote, and what follows its
closing quote. The number bounds how many characters there are. -/
def stringBody? : Nat → Text → Option (List (Option Char) × Text)
  | 0, _ => none
  | _ + 1, [] => none
  | bound + 1, c :: rest =>
    if c = '"' then
      some ([], rest)
    else if c = '\\' then do
      let (written, rest) ← escape? rest
      let (more, rest) ← stringBody? bound rest
      return (written :: more, rest)
    else if c.toNat < 0x20 then
      none
    else do
      let (more, rest) ← stringBody? bound rest
      return (some c :: more, rest)

/-- The text of a string behind its opening quote, missing if it cannot be held, and
what follows. -/
def string? (bound : Nat) (text : Text) : Option (Option Text × Text) :=
  (stringBody? bound text).map fun (chars, rest) => (chars.mapM id, rest)

/-! ## Numbers -/

/-- The digits of a whole part, which has no leading zero, and what follows. -/
def wholePart? (text : Text) : Option (Text × Text) :=
  match Decimal.digits text with
  | ([], _) => none
  | ('0' :: _ :: _, _) => none
  | part => some part

/-- The digits of a fraction that may be missing, and what follows. -/
def fraction? : Text → Option (Option Text × Text)
  | '.' :: rest =>
    match Decimal.digits rest with
    | ([], _) => none
    | (part, rest) => some (some part, rest)
  | rest => some (none, rest)

/-- Whether a number exceeds every number that can be held. Its digits count as far as
they fit into 64 bits: those of the whole part that do not fit make it ten times greater
each, and those of the fraction are left out. -/
def exceeds (whole fraction : Text) (exponent : Int) : Bool :=
  let (value, wholeLeft) := Decimal.fitting 0 whole
  let (value, fractionLeft) := Decimal.fitting value fraction
  let read := fraction.length - fractionLeft.length
  Decimal.productExceeds value (exponent + wholeLeft.length - read)

/-- The number up to which the digits of an exponent are read. -/
def mostExponent : Nat := Nat.pow 2 31

/-- The number without its sign, and what follows. -/
def unsigned? (negative : Bool) (text : Text) : Option (Atom × Text) := do
  let (whole, rest) ← wholePart? text
  let (fraction, rest) ← fraction? rest
  let (exponent, rest) ← Decimal.exponent? mostExponent rest
  let (value, left) := Decimal.fitting 0 whole
  let isWhole := left.isEmpty && fraction.isNone && exponent.isNone
  if isWhole && negative && 0 < value && value ≤ Nat.pow 2 63 then
    return (.integer (-value), rest)
  else if isWhole && !negative then
    return (.integer value, rest)
  else if exceeds whole (fraction.getD []) (exponent.getD 0) then
    return (.unholdable, rest)
  else
    return (.real, rest)

/-- A number and what follows. -/
def number? : Text → Option (Atom × Text)
  | '-' :: rest => unsigned? true rest
  | text => unsigned? false text

/-! ## Values -/

/-- The document of a string. -/
def ofString (content : Option Text) : Document :=
  .atom (match content with
    | some text => .text text
    | none => .unholdable)

mutual

/-- A value at the beginning of a text, and what follows it. The number bounds how many
characters there are, with room for the steps that read none. -/
def value? : Nat → Text → Option (Document × Text)
  | 0, _ => none
  | bound + 1, text =>
    match text with
    | '{' :: rest =>
      match skipBlanks rest with
      | '}' :: rest => some (.table [], rest)
      | rest => (entries? bound rest).map fun (entries, rest) => (.table entries, rest)
    | '[' :: rest =>
      match skipBlanks rest with
      | ']' :: rest => some (.list [], rest)
      | rest => (items? bound rest).map fun (items, rest) => (.list items, rest)
    | '"' :: rest => (string? bound rest).map fun (content, rest) => (ofString content, rest)
    | 'n' :: 'u' :: 'l' :: 'l' :: rest => some (.atom .null, rest)
    | 't' :: 'r' :: 'u' :: 'e' :: rest => some (.atom (.bool true), rest)
    | 'f' :: 'a' :: 'l' :: 's' :: 'e' :: rest => some (.atom (.bool false), rest)
    | text => (number? text).map fun (value, rest) => (.atom value, rest)

/-- The items of a list up to its closing bracket, at least one, and what follows. -/
def items? : Nat → Text → Option (List Document × Text)
  | 0, _ => none
  | bound + 1, text => do
    let (item, rest) ← value? bound (skipBlanks text)
    match skipBlanks rest with
    | ',' :: rest =>
      let (items, rest) ← items? bound rest
      return (item :: items, rest)
    | ']' :: rest => return ([item], rest)
    | _ => none

/-- The entries of a table up to its closing brace, at least one, and what follows. -/
def entries? : Nat → Text → Option (List (Document × Document) × Text)
  | 0, _ => none
  | bound + 1, text =>
    match skipBlanks text with
    | '"' :: rest => do
      let (key, rest) ← string? bound rest
      match skipBlanks rest with
      | ':' :: rest =>
        let (value, rest) ← value? bound (skipBlanks rest)
        match skipBlanks rest with
        | ',' :: rest =>
          let (entries, rest) ← entries? bound rest
          return ((ofString key, value) :: entries, rest)
        | '}' :: rest => return ([(ofString key, value)], rest)
        | _ => none
      | _ => none
    | _ => none

end

/-- The document that a JSON text writes. -/
def read? (text : Text) : Option Document := do
  let (document, rest) ← value? (2 * text.length + 2) (skipBlanks text)
  if (skipBlanks rest).isEmpty then return document else none

end DistDirectives.Document.Json
