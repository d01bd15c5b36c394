/-! # Names and characters of XML

The character classes of the XML Namespaces grammar: a non-colonized name (`NCName`) starts
with a name-start character and goes on with name characters. `isXmlChar` is the `Char`
production of XML 1.0, the code points a character reference may name. -/
namespace XmlPointer.Text

def inRange (n lo hi : Nat) : Bool :=
  lo ≤ n && n ≤ hi

/-- Characters that may start a non-colonized name. -/
def isNameStart (c : Char) : Bool :=
  let n := c.toNat
  inRange n 0x41 0x5A || n = 0x5F || inRange n 0x61 0x7A || inRange n 0xC0 0xD6 ||
    inRange n 0xD8 0xF6 || inRange n 0xF8 0x2FF || inRange n 0x370 0x37D ||
    inRange n 0x37F 0x1FFF || inRange n 0x200C 0x200D || inRange n 0x2070 0x218F ||
    inRange n 0x2C00 0x2FEF || inRange n 0x3001 0xD7FF || inRange n 0xF900 0xFDCF ||
    inRange n 0xFDF0 0xFFFD || inRange n 0x10000 0xEFFFF

/-- Characters that may continue a non-colonized name. -/
def isNameChar (c : Char) : Bool :=
  let n := c.toNat
  isNameStart c || n = 0x2D || n = 0x2E || inRange n 0x30 0x39 || n = 0xB7 ||
    inRange n 0x300 0x36F || inRange n 0x203F 0x2040

/-- A non-empty list of characters that starts with a name-start character and goes on with
name characters. -/
def isNCNameList : List Char → Bool
  | [] => false
  | c :: cs => isNameStart c && cs.all isNameChar

def isNCName (s : String) : Bool :=
  isNCNameList s.toList

/-- The code points of the XML 1.0 `Char` production. -/
def isXmlChar (n : Nat) : Bool :=
  n = 0x9 || n = 0xA || n = 0xD || inRange n 0x20 0xD7FF || inRange n 0xE000 0xFFFD ||
    inRange n 0x10000 0x10FFFF

end XmlPointer.Text
