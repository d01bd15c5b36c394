import XmlPointer.Text.Utf8

/-! # Percent-encoding

The percent-encode sets of the URL standard, as predicates on ASCII bytes. Encoding writes a
character itself when it is ASCII and outside the set, and otherwise each byte of its UTF-8
form as `%` and two uppercase hexadecimal digits. Decoding turns each `%` with two hexadecimal
digits back into its byte and keeps every other byte. -/
namespace XmlPointer.Location

def inControlSet (b : Nat) : Bool :=
  b < 0x20 || b ≥ 0x7F

def inFragmentSet (b : Nat) : Bool :=
  inControlSet b || [0x20, 0x22, 0x3C, 0x3E, 0x60].contains b

def inQuerySet (b : Nat) : Bool :=
  inControlSet b || [0x20, 0x22, 0x23, 0x3C, 0x3E].contains b

def inSpecialQuerySet (b : Nat) : Bool :=
  inQuerySet b || b = 0x27

def inPathSet (b : Nat) : Bool :=
  inFragmentSet b || [0x23, 0x3F, 0x7B, 0x7D].contains b

def inUserinfoSet (b : Nat) : Bool :=
  inPathSet b || [0x2F, 0x3A, 0x3B, 0x3D, 0x40, 0x5B, 0x5C, 0x5D, 0x5E, 0x7C].contains b

def inSpecialSegmentSet (b : Nat) : Bool :=
  inPathSet b || b = 0x2F || b = 0x25 || b = 0x5C

def hexDigitChar (n : Nat) : Char :=
  if n < 10 then Char.ofNat (0x30 + n) else Char.ofNat (0x41 + n - 10)

def escapeByte (b : UInt8) : String :=
  String.ofList ['%', hexDigitChar (b.toNat / 16), hexDigitChar (b.toNat % 16)]

/-- One character, percent-encoded by a set. -/
def encodeChar (set : Nat → Bool) (c : Char) : String :=
  if c.toNat < 0x80 && !set c.toNat then c.toString
  else String.join ((String.utf8EncodeChar c).map escapeByte)

def percentEncode (set : Nat → Bool) (s : String) : String :=
  String.join (s.toList.map (encodeChar set))

/-- The value of a hexadecimal digit byte. -/
def hexValue (b : UInt8) : Option Nat :=
  let n := b.toNat
  if 0x30 ≤ n && n ≤ 0x39 then some (n - 0x30)
  else if 0x41 ≤ n && n ≤ 0x46 then some (n - 0x41 + 10)
  else if 0x61 ≤ n && n ≤ 0x66 then some (n - 0x61 + 10)
  else none

/-- Bytes with each `%` and two hexadecimal digits turned into the byte they name. -/
def percentDecodeBytes : List UInt8 → List UInt8
  | b :: h :: l :: rest =>
    if b = 0x25 then
      match hexValue h, hexValue l with
      | some x, some y => (x * 16 + y).toUInt8 :: percentDecodeBytes rest
      | _, _ => b :: percentDecodeBytes (h :: l :: rest)
    else b :: percentDecodeBytes (h :: l :: rest)
  | bs => bs
termination_by bs => bs.length

def percentDecode (s : String) : List UInt8 :=
  percentDecodeBytes (Text.Utf8.encode s)

end XmlPointer.Location
