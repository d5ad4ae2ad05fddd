import DistDirectives.Document
import DistDirectives.Document.Decimal
import DistDirectives.Text.Utf8

/-!
# Bare words of YAML texts

A scalar that is not quoted stands for a missing value, a truth value or a number if it
is spelled like one, and for its own text otherwise. A tag can ask for one of these.
-/

namespace DistDirectives.Document.Yaml

/-- Whether a word stands for a missing value. -/
def isNull (text : Text) : Bool :=
  ["null".toList, "Null".toList, "NULL".toList, "~".toList].contains text

/-- The truth value that a word stands for. -/
def bool? (text : Text) : Option Bool :=
  if ["true".toList, "True".toList, "TRUE".toList].contains text then some true
  else if ["false".toList, "False".toList, "FALSE".toList].contains text then some false
  else none

/-! ## Integers -/

/-- The word without a sign in front of it. -/
def withoutSign : Text → Text
  | '+' :: rest => rest
  | '-' :: rest => rest
  | text => text

/-- Whether a word consists of digits behind a zero, with or without a sign. Such a word
is no number. -/
def isPadded (text : Text) : Bool :=
  match withoutSign text with
  | '0' :: d :: rest => (d :: rest).all Char.isDigit
  | _ => false

/-- The value of a digit in any base up to sixteen. -/
def digit? (base : Nat) (c : Char) : Option Nat := do
  let value ← Decimal.hexDigit? c
  if value < base then return value else none

/-- The value of some digits, of which there is at least one, if it fits into 128 bits. -/
def inBase? (base : Nat) (digits : Text) : Option Nat :=
  if digits.isEmpty then none
  else
    digits.foldlM (fun value c => do
      let next := value * base + (← digit? base c)
      if next < Nat.pow 2 128 then return next else none) 0

/-- The value of the digits behind the mark of a base. -/
def marked? : Text → Option Nat
  | '0' :: 'x' :: digits => inBase? 16 digits
  | '0' :: 'o' :: digits => inBase? 8 digits
  | '0' :: 'b' :: digits => inBase? 2 digits
  | _ => none

/-- The size of the integer that a word without its sign stands for, if it fits into 128
bits. -/
def size? (text : Text) : Option Nat :=
  match marked? text with
  | some value => some value
  | none => if isPadded text then none else inBase? 10 text

/-- The integer that a word stands for. One of more than 64 bits cannot be held, and one
of more than 128 bits is none. -/
def integer? (text : Text) : Option Atom :=
  match text with
  | '-' :: digits => (size? digits).bind fun value =>
    if value ≤ Nat.pow 2 63 then some (.integer (-value))
    else if value ≤ Nat.pow 2 127 then some .unholdable
    else none
  | text =>
    let digits := match text with
      | '+' :: rest => rest
      | rest => rest
    (size? digits).bind fun value =>
      if value < Nat.pow 2 64 then some (.integer value) else some .unholdable

/-! ## Other numbers -/

/-- Whether a text without a sign is the name of an infinite number. -/
def isInfinity (text : Text) : Bool :=
  [".inf".toList, ".Inf".toList, ".INF".toList].contains text

/-- Whether a text is the name of what is no number at all. -/
def isNaN (text : Text) : Bool :=
  [".nan".toList, ".NaN".toList, ".NAN".toList].contains text

/-- Whether a text without a sign is a decimal number that can be held: digits with or
without a point among them, and perhaps an exponent. -/
def isFinite (text : Text) : Bool :=
  let (whole, rest) := Decimal.digits text
  let (fraction, rest) := match rest with
    | '.' :: rest => Decimal.digits rest
    | rest => ([], rest)
  match Decimal.exponent? Decimal.mostExponent rest with
  | some (exponent, []) =>
    !(whole ++ fraction).isEmpty &&
      !Decimal.exceeds (whole ++ fraction) (exponent.getD 0 - fraction.length)
  | _ => false

/-- Whether a word is a number. A sign in front of another one is none. -/
def isReal (text : Text) : Bool :=
  match text with
  | '+' :: rest => isInfinity rest || isFinite rest
  | '-' :: rest => isInfinity rest || isFinite rest
  | rest => isInfinity rest || isNaN rest || isFinite rest

/-! ## Scalars -/

/-- What a bare word stands for. -/
def ofWord (text : Text) : Atom :=
  if text.isEmpty || isNull text then .null
  else
    match bool? text with
    | some value => .bool value
    | none =>
      match integer? text with
      | some held => held
      | none => if !isPadded text && isReal text then .real else .text text

/-! ## Tags

A tag in full is a sequence of octets, kept as the characters of their numbers.
-/

/-- The meaning of the standard handle of tags. -/
def standardTags : Text := "tag:yaml.org,2002:".toList

/-- The tag of missing values. -/
def nullTag : Text := standardTags ++ "null".toList

/-- Whether a tag has a meaning in its own text only. Such a tag is the name of a kind,
so its octets have to encode a text. -/
def isForeign (tag : Text) : Bool :=
  tag.head? = some '!' && (Utf8.decode? (tag.map fun c => UInt8.ofNat c.toNat)).isSome

/-- What a scalar under a tag stands for where any value can stand. A foreign tag makes
something that cannot be held, and unknown tags ask for the text itself. -/
def ofTagged (tag content : Text) (isPlain : Bool) : Atom :=
  if tag = standardTags ++ "bool".toList then
    match bool? content with
    | some value => .bool value
    | none => .unholdable
  else if tag = standardTags ++ "int".toList then
    (integer? content).getD .unholdable
  else if tag = standardTags ++ "float".toList then
    if isReal content then .real else .unholdable
  else if tag = nullTag then
    if isNull content then .null else .unholdable
  else if isForeign tag then
    .unholdable
  else if tag.head? = some '!' && isPlain then
    ofWord content
  else
    .text content

/-- What a scalar stands for where any value can stand. -/
def atomOf (tag : Option Text) (content : Text) (isPlain : Bool) : Atom :=
  match tag with
  | some tag => ofTagged tag content isPlain
  | none => if isPlain then ofWord content else .text content

/-- What a scalar says where a value may be missing. A quoted one is there, and so is one
under a tag other than that of missing values. -/
def presenceOf (tag : Option Text) (content : Text) (isPlain : Bool) : Presence :=
  if !isPlain then .present
  else
    match tag with
    | some tag =>
      if tag ≠ nullTag then .present
      else if isNull content then .missing
      else .unclear
    | none => if content.isEmpty || isNull content then .missing else .present

/-- The document of a scalar. -/
def ofScalar (tag : Option Text) (content : Text) (isPlain : Bool) : Document :=
  .word
    { spelling := content
      atom := atomOf tag content isPlain
      presence := presenceOf tag content isPlain
      isBlank := isPlain && content.isEmpty }

end DistDirectives.Document.Yaml
