import DistDirectives.Document
import DistDirectives.Document.Decimal

/-!
# Words of TOML

Blanks, comments, keys, strings, numbers and moments, each read from the beginning of
a text together with what follows it.
-/

namespace DistDirectives.Document.Toml

/-! ## Blanks and comments -/

/-- The blanks within a line. -/
def isBlank (c : Char) : Bool := c = ' ' || c = '\t'

/-- The text without the blanks at its beginning. -/
def skipBlanks (text : Text) : Text := text.dropWhile isBlank

/-- Whether a character can stand in a comment or, its quotes apart, in a string of
one line. -/
def isPlain (c : Char) : Bool := c = '\t' || (0x20 ≤ c.toNat && c.toNat ≠ 0x7F)

/-- What follows a line break. -/
def afterBreak? : Text → Option Text
  | '\n' :: rest => some rest
  | '\r' :: '\n' :: rest => some rest
  | _ => none

/-- The text without the comment at its beginning. -/
def skipComment : Text → Text
  | '#' :: rest => rest.dropWhile isPlain
  | text => text

/-- What follows the end of a line, which can have a comment. The end of the text ends
a line too. -/
def afterLine? (text : Text) : Option Text :=
  match skipComment (skipBlanks text) with
  | [] => some []
  | rest => afterBreak? rest

/-- The text without blanks, line breaks and comments at its beginning. The number
bounds how many lines are passed over. -/
def skipLines : Nat → Text → Text
  | 0, text => text
  | bound + 1, text =>
    let here := skipBlanks text
    match here with
    | [] => []
    | '#' :: _ =>
      match afterLine? here with
      | some rest => skipLines bound rest
      | none => here
    | _ =>
      match afterBreak? here with
      | some rest => skipLines bound rest
      | none => here

/-! ## Strings -/

/-- The character of a code point that a number of digits writes, and what follows. -/
def codePoint? (count : Nat) (text : Text) : Option (Char × Text) := do
  let (value, rest) ← Decimal.hexDigits? count 0 text
  if value < 0xD800 ∨ (0xDFFF < value ∧ value < 0x110000) then
    return (Char.ofNat value, rest)
  else
    none

/-- The character that an escape writes, without its backslash, and what follows. -/
def escape? : Text → Option (Char × Text)
  | 'b' :: rest => some ('\x08', rest)
  | 't' :: rest => some ('\t', rest)
  | 'n' :: rest => some ('\n', rest)
  | 'f' :: rest => some ('\x0c', rest)
  | 'r' :: rest => some ('\r', rest)
  | '"' :: rest => some ('"', rest)
  | '\\' :: rest => some ('\\', rest)
  | 'u' :: rest => codePoint? 4 rest
  | 'U' :: rest => codePoint? 8 rest
  | _ => none

/-- The content of a string of one line behind its quotation mark, and what follows
the closing one. Only with double quotes do backslashes escape. The number bounds how
many characters there are. -/
def lineString? (mark : Char) : Nat → Text → Option (Text × Text)
  | 0, _ => none
  | _ + 1, [] => none
  | bound + 1, c :: rest =>
    if c = mark then
      some ([], rest)
    else if c = '\\' ∧ mark = '"' then do
      let (written, rest) ← escape? rest
      let (more, rest) ← lineString? mark bound rest
      return (written :: more, rest)
    else if isPlain c then do
      let (more, rest) ← lineString? mark bound rest
      return (c :: more, rest)
    else
      none

/-- The text without the blanks and line breaks at its beginning. -/
def skipEmptyLines : Text → Text
  | '\n' :: rest => skipEmptyLines rest
  | '\r' :: '\n' :: rest => skipEmptyLines rest
  | c :: rest => if isBlank c then skipEmptyLines rest else c :: rest
  | [] => []

/-- What follows a backslash at the end of a line: blanks and line breaks are passed
over, and there is a line break in front. -/
def afterFold? (text : Text) : Option Text :=
  (afterBreak? (skipBlanks text)).map skipEmptyLines

/-- The content of a string of several lines behind its three quotation marks, and
what follows the closing three. Up to two marks directly before those belong to the
content. -/
def blockString? (mark : Char) : Nat → Text → Option (Text × Text)
  | 0, _ => none
  | _ + 1, [] => none
  | bound + 1, c :: rest =>
    if c = mark then
      let run := (c :: rest).takeWhile (· = mark)
      if run.length < 3 then do
        let (more, rest) ← blockString? mark bound rest
        return (c :: more, rest)
      else
        let kept := min (run.length - 3) 2
        some (run.take kept, (c :: rest).drop (kept + 3))
    else if c = '\\' ∧ mark = '"' then
      match afterFold? rest with
      | some rest => blockString? mark bound rest
      | none => do
        let (written, rest) ← escape? rest
        let (more, rest) ← blockString? mark bound rest
        return (written :: more, rest)
    else
      match afterBreak? (c :: rest) with
      | some rest => do
        let (more, rest) ← blockString? mark bound rest
        return ('\n' :: more, rest)
      | none =>
        if isPlain c then do
          let (more, rest) ← blockString? mark bound rest
          return (c :: more, rest)
        else
          none

/-- A string of several lines behind its three quotation marks; a line break right
there is not part of the content. -/
def block? (mark : Char) (bound : Nat) (text : Text) : Option (Text × Text) :=
  blockString? mark bound ((afterBreak? text).getD text)

/-- A string of any of the four kinds, and what follows it. -/
def string? (bound : Nat) : Text → Option (Text × Text)
  | '"' :: '"' :: '"' :: rest => block? '"' bound rest
  | '\'' :: '\'' :: '\'' :: rest => block? '\'' bound rest
  | '"' :: rest => lineString? '"' bound rest
  | '\'' :: rest => lineString? '\'' bound rest
  | _ => none

/-! ## Keys -/

/-- The characters of keys without quotation marks. -/
def isKeyChar (c : Char) : Bool :=
  ('a' ≤ c && c ≤ 'z') || ('A' ≤ c && c ≤ 'Z') || ('0' ≤ c && c ≤ '9') || c = '-' || c = '_'

/-- A key and what follows it. -/
def key? (bound : Nat) : Text → Option (Text × Text)
  | '"' :: rest => lineString? '"' bound rest
  | '\'' :: rest => lineString? '\'' bound rest
  | text =>
    match text.takeWhile isKeyChar with
    | [] => none
    | name => some (name, text.dropWhile isKeyChar)

/-- The number of keys that there can be with dots between them. -/
def mostKeys : Nat := 79

/-- Keys with dots between them, blanks around each, and what follows. The numbers bound
the characters of a key and how many keys there are. -/
def keys? (bound : Nat) : Nat → Text → Option (List Text × Text)
  | 0, _ => none
  | count + 1, text => do
    let (key, rest) ← key? bound (skipBlanks text)
    match skipBlanks rest with
    | '.' :: rest =>
      let (keys, rest) ← keys? bound count rest
      return (key :: keys, rest)
    | rest => return ([key], rest)

/-- Keys with dots between them, and what follows. -/
def dottedKeys? (bound : Nat) (text : Text) : Option (List Text × Text) :=
  keys? bound mostKeys text

/-! ## Numbers -/

/-- Digits of a class, single underscores between them allowed, and what follows; the
underscores are left out. -/
def underscored (isDigit : Char → Bool) : Text → Text × Text
  | c :: '_' :: d :: rest =>
    if isDigit c then
      if isDigit d then
        let (more, rest) := underscored isDigit (d :: rest)
        (c :: more, rest)
      else
        ([c], '_' :: d :: rest)
    else
      ([], c :: '_' :: d :: rest)
  | c :: rest =>
    if isDigit c then
      let (more, rest) := underscored isDigit rest
      (c :: more, rest)
    else
      ([], c :: rest)
  | [] => ([], [])

/-- The digits of a whole number without leading zeros, and what follows. -/
def wholeDigits? (text : Text) : Option (Text × Text) :=
  match text with
  | '0' :: rest => some (['0'], rest)
  | text =>
    match underscored Char.isDigit text with
    | ([], _) => none
    | part => some part

/-- Digits that may start with zeros, at least one, and what follows. -/
def someDigits? (text : Text) : Option (Text × Text) :=
  match underscored Char.isDigit text with
  | ([], _) => none
  | part => some part

/-- The value of digits to a base, provided that they are digits to it and that it fits
into 64 bits with a sign. -/
def ofBase? (base : Nat) (digits : Text) : Option Nat :=
  digits.foldlM (fun value c => do
    let digit ← Decimal.hexDigit? c
    let next := value * base + digit
    if digit < base ∧ next < Nat.pow 2 63 then return next else none) 0

/-- A whole number behind the letter of its base, and what follows. -/
def based? (base : Nat) (text : Text) : Option (Atom × Text) := do
  let isDigit := fun c => (Decimal.hexDigit? c).any (· < base)
  match underscored isDigit text with
  | ([], _) => none
  | (digits, rest) => return (.integer (← ofBase? base digits), rest)

/-- The fraction behind its point, if there is one, and what follows. -/
def fractionDigits? : Text → Option (Option Text × Text)
  | '.' :: rest => (someDigits? rest).map fun (digits, rest) => (some digits, rest)
  | rest => some (none, rest)

/-- The digits of an exponent, read as far as they count, and what follows. -/
def exponentSize? (text : Text) : Option (Int × Text) :=
  (someDigits? text).map fun (digits, rest) =>
    (Decimal.readUpTo Decimal.mostExponent digits, rest)

/-- The exponent behind its letter, and what follows. -/
def exponentValue? : Text → Option (Option Int × Text)
  | '-' :: rest => (exponentSize? rest).map fun (size, rest) => (some (-size), rest)
  | '+' :: rest => (exponentSize? rest).map fun (size, rest) => (some size, rest)
  | rest => (exponentSize? rest).map fun (size, rest) => (some size, rest)

/-- The exponent, if there is one, and what follows. -/
def exponentPart? : Text → Option (Option Int × Text)
  | 'e' :: rest => exponentValue? rest
  | 'E' :: rest => exponentValue? rest
  | rest => some (none, rest)

/-- A decimal number behind its sign, and what follows. A whole number has to fit into
64 bits, and any other one must not exceed every bound. -/
def decimal? (negative : Bool) (text : Text) : Option (Atom × Text) := do
  let (whole, rest) ← wholeDigits? text
  let (fraction, rest) ← fractionDigits? rest
  let (exponent, rest) ← exponentPart? rest
  if fraction.isNone && exponent.isNone then
    match Decimal.fitting 0 whole with
    | (value, []) =>
      if negative then
        if value ≤ Nat.pow 2 63 then return (.integer (-value), rest) else none
      else
        if value < Nat.pow 2 63 then return (.integer value, rest) else none
    | _ => none
  else
    let scale := exponent.getD 0 - (fraction.getD []).length
    if !negative && Decimal.exceeds (whole ++ fraction.getD []) scale then none
    else return (.real, rest)

/-- A number that is written by name behind its sign, and what follows. -/
def named? : Text → Option (Atom × Text)
  | 'i' :: 'n' :: 'f' :: rest => some (.real, rest)
  | 'n' :: 'a' :: 'n' :: rest => some (.real, rest)
  | _ => none

/-- A number and what follows it. -/
def number? : Text → Option (Atom × Text)
  | '0' :: 'x' :: rest => based? 16 rest
  | '0' :: 'o' :: rest => based? 8 rest
  | '0' :: 'b' :: rest => based? 2 rest
  | '+' :: rest => (named? rest).or (decimal? false rest)
  | '-' :: rest => (named? rest).or (decimal? true rest)
  | text => (named? text).or (decimal? false text)

/-! ## Moments -/

/-- A number of decimal digits, read as one number, and what follows them. -/
def fixedDigits? : Nat → Nat → Text → Option (Nat × Text)
  | 0, value, text => some (value, text)
  | count + 1, value, c :: rest =>
    if c.isDigit then fixedDigits? count (value * 10 + (c.toNat - '0'.toNat)) rest else none
  | _ + 1, _, [] => none

/-- The number of days of a month. -/
def daysIn (year month : Nat) : Nat :=
  if month = 2 then
    if (year % 4 = 0 ∧ year % 100 ≠ 0) ∨ year % 400 = 0 then 29 else 28
  else if month = 4 ∨ month = 6 ∨ month = 9 ∨ month = 11 then 30
  else 31

/-- A character and what follows it. -/
def char? (expected : Char) : Text → Option Text
  | c :: rest => if c = expected then some rest else none
  | [] => none

/-- What follows a date. -/
def afterDate? (text : Text) : Option Text := do
  let (year, rest) ← fixedDigits? 4 0 text
  let rest ← char? '-' rest
  let (month, rest) ← fixedDigits? 2 0 rest
  let rest ← char? '-' rest
  let (day, rest) ← fixedDigits? 2 0 rest
  if 1 ≤ month ∧ month ≤ 12 ∧ 1 ≤ day ∧ day ≤ daysIn year month then return rest else none

/-- What follows the fraction of a second, if there is one. -/
def afterSecondFraction? : Text → Option Text
  | '.' :: rest =>
    match rest.takeWhile Char.isDigit with
    | [] => none
    | _ => some (rest.dropWhile Char.isDigit)
  | rest => some rest

/-- What follows a time of day. -/
def afterTime? (text : Text) : Option Text := do
  let (hour, rest) ← fixedDigits? 2 0 text
  let rest ← char? ':' rest
  let (minute, rest) ← fixedDigits? 2 0 rest
  let rest ← char? ':' rest
  let (second, rest) ← fixedDigits? 2 0 rest
  if hour ≤ 23 ∧ minute ≤ 59 ∧ second ≤ 60 then afterSecondFraction? rest else none

/-- What follows the hours and minutes of an offset. -/
def afterOffsetDigits? (text : Text) : Option Text := do
  let (hour, rest) ← fixedDigits? 2 0 text
  let rest ← char? ':' rest
  let (minute, rest) ← fixedDigits? 2 0 rest
  if hour ≤ 23 ∧ minute ≤ 59 then return rest else none

/-- What follows an offset, if there is one. -/
def afterOffset? : Text → Option Text
  | 'Z' :: rest => some rest
  | 'z' :: rest => some rest
  | '+' :: rest => afterOffsetDigits? rest
  | '-' :: rest => afterOffsetDigits? rest
  | rest => some rest

/-- What follows a date with the time that may be attached to it. -/
def afterDateTime? (text : Text) : Option Text := do
  let rest ← afterDate? text
  match rest with
  | c :: more =>
    if c = 'T' ∨ c = 't' ∨ c = ' ' then
      match afterTime? more with
      | some rest => afterOffset? rest
      | none => return rest
    else
      return rest
  | [] => return []

/-- Whether a text begins as dates do. -/
def looksLikeDate (text : Text) : Bool :=
  (text.take 4).all Char.isDigit && (text.drop 4).head? = some '-'

/-- Whether a text begins as times do. -/
def looksLikeTime (text : Text) : Bool :=
  (text.take 2).all Char.isDigit && (text.drop 2).head? = some ':'

/-- A number or a moment, and what follows. -/
def numberOrMoment? (text : Text) : Option (Atom × Text) :=
  if looksLikeDate text then (afterDateTime? text).map fun rest => (.moment, rest)
  else if looksLikeTime text then (afterTime? text).map fun rest => (.moment, rest)
  else number? text

end DistDirectives.Document.Toml
