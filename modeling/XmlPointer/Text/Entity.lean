import XmlPointer.Text.Name
import XmlPointer.Text.Utf8

/-! # Entity references and escaping

Decoding replaces the five predefined entities and character references that name an XML
character; any other `&` stays as it is, and the scan goes on right after it. Escaping is the
other way: `escapeText` for element content and `escapeAttribute` for a double-quoted
attribute value, where tab, line feed and carriage return are written as references so that
reading the value back does not turn them into spaces. -/
namespace XmlPointer.Text

/-- The value of a digit in a radix of at most sixteen. -/
def digitValue (radix : Nat) (b : UInt8) : Option Nat :=
  let n := b.toNat
  let v :=
    if 0x30 ≤ n && n ≤ 0x39 then some (n - 0x30)
    else if 0x61 ≤ n && n ≤ 0x66 then some (n - 0x61 + 10)
    else if 0x41 ≤ n && n ≤ 0x46 then some (n - 0x41 + 10)
    else none
  v.filter (· < radix)

/-- The value of a non-empty digit string. -/
def digitsValue (radix : Nat) : List UInt8 → Nat → Option Nat
  | [], acc => some acc
  | b :: bs, acc => (digitValue radix b).bind fun d => digitsValue radix bs (acc * radix + d)

/-- An unsigned 32-bit number in a radix: an optional `+`, then at least one digit, with a
value below `2^32`. -/
def readUnsigned (radix : Nat) (bs : List UInt8) : Option Nat :=
  let digits := match bs with
    | 0x2B :: rest@(_ :: _) => rest
    | _ => bs
  match digits with
  | [] => none
  | _ => (digitsValue radix digits 0).filter (· < Nat.pow 2 32)

/-- The character that an entity body (the bytes between `&` and `;`) stands for. -/
def entityChar (body : List UInt8) : Option Char :=
  let named : List (List UInt8 × Char) :=
    [([0x6C, 0x74], '<'), ([0x67, 0x74], '>'), ([0x61, 0x6D, 0x70], '&'),
      ([0x71, 0x75, 0x6F, 0x74], '"'), ([0x61, 0x70, 0x6F, 0x73], (Char.ofNat 0x27))]
  match named.find? (·.1 == body) with
  | some (_, c) => some c
  | none =>
    let code := match body with
      | 0x23 :: 0x78 :: hex => readUnsigned 16 hex
      | 0x23 :: 0x58 :: hex => readUnsigned 16 hex
      | 0x23 :: dec => readUnsigned 10 dec
      | _ => none
    (code.filter isXmlChar).map Char.ofNat

/-- The body of a reference and what follows its `;`, for the bytes after an `&`. -/
def splitReference (bs : List UInt8) : Option (List UInt8 × List UInt8) :=
  let body := bs.takeWhile (· != 0x3B)
  if body.length < bs.length then some (body, bs.drop (body.length + 1)) else none

/-- The bytes with every entity and character reference that stands for a character
replaced by that character's UTF-8 bytes. -/
def decodeBytes (bs : List UInt8) : List UInt8 :=
  match bs with
  | [] => []
  | b :: rest =>
    if b = 0x26 then
      match _h : splitReference rest with
      | some (body, after) =>
        match entityChar body with
        | some c => String.utf8EncodeChar c ++ decodeBytes after
        | none => b :: decodeBytes rest
      | none => b :: decodeBytes rest
    else b :: decodeBytes rest
termination_by bs.length
decreasing_by
  all_goals simp only [List.length_cons]
  · simp only [splitReference] at _h
    split at _h
    · cases _h; simp only [List.length_drop]; omega
    · cases _h
  all_goals omega

def decode (s : String) : String :=
  Utf8.lossy (decodeBytes (Utf8.encode s))

/-- Escapes `<`, `>` and `&` for element content. -/
def escapeTextChar (c : Char) : List Char :=
  if c = '<' then "&lt;".toList
  else if c = '>' then "&gt;".toList
  else if c = '&' then "&amp;".toList
  else [c]

/-- Escapes `<`, `&`, `"`, tab, line feed and carriage return for a double-quoted attribute
value. -/
def escapeAttributeChar (c : Char) : List Char :=
  if c = '<' then "&lt;".toList
  else if c = '&' then "&amp;".toList
  else if c = '"' then "&quot;".toList
  else if c = '\t' then "&#9;".toList
  else if c = '\n' then "&#10;".toList
  else if c = '\r' then "&#13;".toList
  else [c]

def escapeText (s : String) : String :=
  String.ofList (s.toList.flatMap escapeTextChar)

def escapeAttribute (s : String) : String :=
  String.ofList (s.toList.flatMap escapeAttributeChar)

end XmlPointer.Text
