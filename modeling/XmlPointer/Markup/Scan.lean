import XmlPointer.Text.Blank

/-! # Searching markup bytes

The searches the tokenizer needs, each on the bytes from the current place on: the length of a
name, of a run of blanks, the offset of a byte sequence, and the offset of the `>` that closes
a tag, where a `>` inside a quoted value does not count. -/
namespace XmlPointer.Markup

def isQuote (b : UInt8) : Bool :=
  b = 0x22 || b = 0x27

def endsName (b : UInt8) : Bool :=
  Text.isXmlBlankByte b || b = 0x2F || b = 0x3E || b = 0x3D || b = 0x3F

def nameLength (bs : List UInt8) : Nat :=
  (bs.takeWhile (fun b => !endsName b)).length

def blankLength (bs : List UInt8) : Nat :=
  (bs.takeWhile Text.isXmlBlankByte).length

/-- The offset of the first occurrence of a non-empty byte sequence. -/
def findSeq (needle : List UInt8) : List UInt8 → Option Nat
  | [] => none
  | b :: bs => if needle.isPrefixOf (b :: bs) then some 0 else (findSeq needle bs).map (· + 1)

/-- The offset of the first `>` outside quotes, `quote` being the quote open at the front. -/
def findClose (quote : Option UInt8) : List UInt8 → Option Nat
  | [] => none
  | b :: bs =>
    match quote with
    | none =>
      if isQuote b then (findClose (some b) bs).map (· + 1)
      else if b = 0x3E then some 0
      else (findClose none bs).map (· + 1)
    | some q =>
      if b = q then (findClose none bs).map (· + 1) else (findClose quote bs).map (· + 1)

def ascii (s : String) : List UInt8 :=
  s.toList.map Char.toUInt8

/-- The bytes equal, ignoring the case of ASCII letters. -/
def equalsIgnoringCase (a b : List UInt8) : Bool :=
  let lower (x : UInt8) : UInt8 := if 0x41 ≤ x && x ≤ 0x5A then x + 0x20 else x
  a.map lower == b.map lower

end XmlPointer.Markup
