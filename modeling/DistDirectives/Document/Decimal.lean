import DistDirectives.Text

/-!
# Digits and numbers

Whole numbers are read from their digits exactly. Any other number is held as a fraction
of 53 bits with a power of two, and only whether it can be held matters here: a decimal
number that rounds to more than every such number cannot.

There are two ways to round. Either the exact value is rounded once, or the digits and
the power of ten are rounded each on their own before they are multiplied.
-/

namespace DistDirectives.Document.Decimal

/-- The value of a decimal digit. -/
def digitValue (c : Char) : Nat := c.toNat - '0'.toNat

/-- The value of a hexadecimal digit. -/
def hexDigit? (c : Char) : Option Nat :=
  if '0' ≤ c ∧ c ≤ '9' then some (c.toNat - '0'.toNat)
  else if 'a' ≤ c ∧ c ≤ 'f' then some (c.toNat - 'a'.toNat + 10)
  else if 'A' ≤ c ∧ c ≤ 'F' then some (c.toNat - 'A'.toNat + 10)
  else none

/-- Some hexadecimal digits, read as one number on from a value, and what follows them. -/
def hexDigits? : Nat → Nat → Text → Option (Nat × Text)
  | 0, value, text => some (value, text)
  | count + 1, value, c :: rest => do
    let digit ← hexDigit? c
    hexDigits? count (value * 16 + digit) rest
  | _ + 1, _, [] => none

/-- The value of a text of decimal digits. -/
def ofDigits (digits : Text) : Nat :=
  digits.foldl (fun value c => value * 10 + digitValue c) 0

/-- The value of a text of decimal digits, read only until it reaches a limit. -/
def readUpTo (limit : Nat) (digits : Text) : Nat :=
  digits.foldl (fun value c => if value < limit then value * 10 + digitValue c else value) 0

/-- Leading decimal digits and what follows them. -/
def digits (text : Text) : Text × Text :=
  (text.takeWhile Char.isDigit, text.dropWhile Char.isDigit)

/-- An exponent behind its letter, read until it reaches a limit, and what follows. -/
def signedDigits? (limit : Nat) (text : Text) : Option (Int × Text) :=
  let (negative, text) := match text with
    | '+' :: rest => (false, rest)
    | '-' :: rest => (true, rest)
    | rest => (false, rest)
  match digits text with
  | ([], _) => none
  | (part, rest) =>
    let size := readUpTo limit part
    some (if negative then -(size : Int) else size, rest)

/-- An exponent that may be missing, read until it reaches a limit, and what follows. -/
def exponent? (limit : Nat) : Text → Option (Option Int × Text)
  | 'e' :: rest => (signedDigits? limit rest).map fun (value, rest) => (some value, rest)
  | 'E' :: rest => (signedDigits? limit rest).map fun (value, rest) => (some value, rest)
  | rest => some (none, rest)

/-! ## The greatest numbers -/

/-- The least number that rounds to more than every number that can be held. -/
def beyond : Nat := Nat.pow 2 1024 - Nat.pow 2 970

/-- The exponents up to which the digits of one are read when a number is rounded once. -/
def mostExponent : Nat := 0x10000

/-- Whether some digits with a power of ten, rounded once, exceed every number that can
be held. Only the digits in front of the point decide that. -/
def exceeds (digits : Text) (exponent : Int) : Bool :=
  let significant := digits.dropWhile (· = '0')
  let places : Int := significant.length + exponent
  if significant.isEmpty ∨ places < 300 then false
  else if 320 < places then true
  else
    let whole := significant.take places.toNat
    beyond ≤ ofDigits whole * Nat.pow 10 (places.toNat - whole.length)

/-- The nearest number of 53 bits and zeros behind them; halfway between two of them,
the one whose last bit is zero. -/
def nearest (number : Nat) : Nat :=
  let unit := Nat.pow 2 (number.log2 - 52)
  let below := number / unit
  let rest := number % unit
  (if unit < 2 * rest ∨ (unit = 2 * rest ∧ below % 2 = 1) then below + 1 else below) * unit

/-- The greatest power of ten that can be held. -/
def mostPower : Int := 308

/-- Whether a number with a power of ten, each rounded on its own, exceeds every number
that can be held. -/
def productExceeds (significand : Nat) (exponent : Int) : Bool :=
  if significand = 0 ∨ exponent < 0 then false
  else if mostPower < exponent then true
  else beyond ≤ nearest significand * nearest (Nat.pow 10 exponent.toNat)

/-- A number with more digits read on to it, as many as fit into 64 bits, and the digits
that are left. -/
def fitting : Nat → Text → Nat × Text
  | value, [] => (value, [])
  | value, c :: rest =>
    let next := value * 10 + digitValue c
    if next < Nat.pow 2 64 then fitting next rest else (value, c :: rest)

end DistDirectives.Document.Decimal
