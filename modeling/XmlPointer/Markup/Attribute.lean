import XmlPointer.Markup.Fault
import XmlPointer.Markup.Scan
import XmlPointer.Text.Entity

/-! # Attributes of a tag

The attribute region of a tag is a sequence of `name = "value"` items between blanks. A value
is quoted with `"` or `'`, holds no `<`, and is normalized: tab, line feed and carriage return
become spaces, then references are decoded. In strict mode a repeated name is a fault. -/
namespace XmlPointer.Markup

/-- An attribute: its qualified name and its normalized value. -/
structure Attribute where
  name : List UInt8
  value : List UInt8
  deriving Repr, DecidableEq

/-- A qualified name split at its first colon into prefix and local name. -/
def splitName (name : List UInt8) : Option (List UInt8) × List UInt8 :=
  let pre := name.takeWhile (· != 0x3A)
  if pre.length < name.length then (some pre, name.drop (pre.length + 1)) else (none, name)

def Attribute.prefixPart (a : Attribute) : Option (List UInt8) :=
  (splitName a.name).1

def Attribute.localPart (a : Attribute) : List UInt8 :=
  (splitName a.name).2

def Attribute.isDeclaration (a : Attribute) : Bool :=
  a.name == ascii "xmlns" || a.prefixPart == some (ascii "xmlns")

def normalizeValue (raw : List UInt8) : List UInt8 :=
  Text.decodeBytes (raw.map fun b => if b = 0x09 || b = 0x0A || b = 0x0D then 0x20 else b)

/-- Reads the quoted value that starts `rest` (at offset `pos`) of the attribute `name`
(started at `nameStart`): the attributes read so far, extended, and the offset and bytes
after the closing quote. -/
def readValue (offset : Nat) (strict : Bool) (name : List UInt8) (nameStart pos : Nat)
    (rest : List UInt8) (acc : List Attribute) :
    Except SyntaxError (List Attribute × Nat × List UInt8) :=
  match rest with
  | q :: rest =>
    if isQuote q then
      let len := (rest.takeWhile (· != q)).length
      if len = rest.length then .error ⟨.unterminatedAttributeValue, offset + pos + 1⟩
      else
        let raw := rest.take len
        let after := pos + 1 + len + 1
        if raw.contains 0x3C then .error ⟨.ltInAttributeValue, offset + after⟩
        else if strict && acc.any (·.name == name) then
          .error ⟨.duplicateAttribute, offset + nameStart⟩
        else .ok (⟨name, normalizeValue raw⟩ :: acc, after, rest.drop (len + 1))
    else .error ⟨.unquotedAttributeValue, offset + pos⟩
  | [] => .error ⟨.unquotedAttributeValue, offset + pos⟩

/-- Reads the attributes of `rest`, which starts at offset `pos` of the region; `acc` holds
those read so far, last first. -/
def readAttributes (offset : Nat) (strict : Bool) :
    Nat → Nat → List UInt8 → List Attribute → Except SyntaxError (List Attribute)
  | 0, _, _, acc => .ok acc.reverse
  | fuel + 1, pos, rest, acc =>
    let nameStart := pos + blankLength rest
    let rest := rest.drop (blankLength rest)
    if rest.isEmpty then .ok acc.reverse
    else
      let name := rest.takeWhile fun b => !Text.isXmlBlankByte b && b != 0x3D
      let malformed := match name with
        | b :: _ => isQuote b || b = 0x3C
        | [] => true
      if malformed then .error ⟨.malformedAttributeName, offset + nameStart⟩
      else
        let rest := rest.drop name.length
        let eqAt := nameStart + name.length + blankLength rest
        match rest.drop (blankLength rest) with
        | 0x3D :: rest =>
          let valueAt := eqAt + 1 + blankLength rest
          match readValue offset strict name nameStart valueAt (rest.drop (blankLength rest))
            acc with
          | .error e => .error e
          | .ok (acc, after, rest) => readAttributes offset strict fuel after rest acc
        | _ => .error ⟨.attributeWithoutValue, offset + nameStart⟩

/-- The attributes of a tag's region, which starts at byte `offset` of the input. -/
def parseAttributes (region : List UInt8) (offset : Nat) (strict : Bool) :
    Except SyntaxError (List Attribute) :=
  readAttributes offset strict (region.length + 1) 0 region []

end XmlPointer.Markup
