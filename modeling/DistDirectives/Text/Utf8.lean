import DistDirectives.Text

/-!
# UTF-8

A byte sequence is read from its beginning as characters and faults. A fault is
a maximal run of bytes that begins like the encoding of a character and does not
go on like one. A sequence without faults is the encoding of exactly one text;
a sequence with faults can still be shown, each fault standing as one replacement
character.
-/

namespace DistDirectives.Utf8

/-- The bytes of a text. -/
def encode (text : Text) : Bytes := text.flatMap String.utf8EncodeChar

/-- The number of bytes of a text. -/
def size (text : Text) : Nat := (encode text).length

/-- Whether a byte lies between two bounds. -/
def within (low high byte : UInt8) : Bool := low.toNat ≤ byte.toNat && byte.toNat ≤ high.toNat

/-- A continuation byte. -/
def continues (byte : UInt8) : Bool := within 0x80 0xBF byte

/-- The second bytes that may follow a leading byte of three. -/
def secondOfThree (lead byte : UInt8) : Bool :=
  if lead = 0xE0 then within 0xA0 0xBF byte
  else if lead = 0xED then within 0x80 0x9F byte
  else continues byte

/-- The second bytes that may follow a leading byte of four. -/
def secondOfFour (lead byte : UInt8) : Bool :=
  if lead = 0xF0 then within 0x90 0xBF byte
  else if lead = 0xF4 then within 0x80 0x8F byte
  else continues byte

/-- The low six bits of a continuation byte. -/
def payload (byte : UInt8) : Nat := byte.toNat % 64

/-- The characters of a byte sequence in order, `none` standing for a fault. -/
def scan : Bytes → List (Option Char)
  | [] => []
  | a :: rest =>
    if a.toNat < 0x80 then
      some (Char.ofNat a.toNat) :: scan rest
    else if within 0xC2 0xDF a then
      match rest with
      | [] => [none]
      | b :: rest =>
        if continues b then
          some (Char.ofNat (a.toNat % 32 * 64 + payload b)) :: scan rest
        else none :: scan (b :: rest)
    else if within 0xE0 0xEF a then
      match rest with
      | [] => [none]
      | b :: rest =>
        if secondOfThree a b then
          match rest with
          | [] => [none]
          | c :: rest =>
            if continues c then
              some (Char.ofNat ((a.toNat % 16 * 64 + payload b) * 64 + payload c)) :: scan rest
            else none :: scan (c :: rest)
        else none :: scan (b :: rest)
    else if within 0xF0 0xF4 a then
      match rest with
      | [] => [none]
      | b :: rest =>
        if secondOfFour a b then
          match rest with
          | [] => [none]
          | c :: rest =>
            if continues c then
              match rest with
              | [] => [none]
              | d :: rest =>
                if continues d then
                  some (Char.ofNat
                    (((a.toNat % 8 * 64 + payload b) * 64 + payload c) * 64 + payload d)) ::
                    scan rest
                else none :: scan (d :: rest)
            else none :: scan (c :: rest)
        else none :: scan (b :: rest)
    else none :: scan rest

/-- The text that a byte sequence encodes, if it encodes one. -/
def decode? (bytes : Bytes) : Option Text := (scan bytes).mapM id

/-- The character shown in place of a fault. -/
def replacement : Char := '\uFFFD'

/-- The text of a byte sequence, each fault shown as the replacement character. -/
def decodeLossy (bytes : Bytes) : Text := (scan bytes).map (·.getD replacement)

example : decodeLossy [0x61, 0xFF, 0xE2, 0x82, 0x62, 0xF0, 0x9F, 0x98] =
    ['a', replacement, replacement, 'b', replacement] := by decide

example : decode? [0xE2, 0x82, 0xAC, 0xF0, 0x9F, 0x98, 0x80] = some ['€', '😀'] := by decide

end DistDirectives.Utf8
