/-! # Blank characters

Three sets of blanks are used: the four blanks of XML (space, tab, line feed, carriage
return), the ASCII blanks (those four and form feed), which split whitespace-separated lists,
and the Unicode `White_Space` property, which `trimUnicode` strips from both ends of a text. -/
namespace XmlPointer.Text

def isXmlBlank (c : Char) : Bool :=
  c = ' ' || c = '\t' || c = '\n' || c = '\r'

def isXmlBlankByte (b : UInt8) : Bool :=
  b = 0x20 || b = 0x09 || b = 0x0A || b = 0x0D

def isAsciiBlank (c : Char) : Bool :=
  isXmlBlank c || c = '\x0C'

def isAsciiBlankByte (b : UInt8) : Bool :=
  isXmlBlankByte b || b = 0x0C

/-- The characters with the Unicode `White_Space` property. -/
def isUnicodeBlank (c : Char) : Bool :=
  let n := c.toNat
  (0x09 ≤ n && n ≤ 0x0D) || n = 0x20 || n = 0x85 || n = 0xA0 || n = 0x1680 ||
    (0x2000 ≤ n && n ≤ 0x200A) || n = 0x2028 || n = 0x2029 || n = 0x202F || n = 0x205F ||
    n = 0x3000

def trimBy (p : Char → Bool) (cs : List Char) : List Char :=
  ((cs.dropWhile p).reverse.dropWhile p).reverse

def trimUnicode (s : String) : String :=
  String.ofList (trimBy isUnicodeBlank s.toList)

def trimXml (s : String) : String :=
  String.ofList (trimBy isXmlBlank s.toList)

/-- Splits a list at every run of characters that satisfy `p`, keeping no empty word; `word`
holds the current word, last character first. -/
def wordsBy (p : Char → Bool) (word : List Char) : List Char → List (List Char)
  | [] => if word.isEmpty then [] else [word.reverse]
  | c :: cs =>
    if p c then (if word.isEmpty then wordsBy p [] cs else word.reverse :: wordsBy p [] cs)
    else wordsBy p (c :: word) cs

def asciiWords (s : String) : List String :=
  (wordsBy isAsciiBlank [] s.toList).map String.ofList

end XmlPointer.Text
