import XmlPointer.Location.DomainMap
import XmlPointer.Location.Punycode
import XmlPointer.Unicode.Normalization
import XmlPointer.Unicode.Bidi
import XmlPointer.Unicode.Joining
import XmlPointer.Unicode.Mark

/-! # Domains in ASCII

A domain is written in ASCII by the processing of UTS 46 that the URL standard asks for. Its
characters are mapped by the IDNA table and put in Normalization Form C, and the ASCII characters
that a host may not hold are refused; the text is then cut into labels at each full stop. A label
written as `xn--` and Punycode is read back, and what it stands for must be in Normalization Form
C and hold only valid characters. No label may begin with a mark, the two joiners stand only
where the joining rules allow them, and in a domain with characters written right to left every
label keeps the bidirectional rule. Hyphens and lengths are not checked. A label beyond ASCII is
then written as `xn--` and its Punycode. -/
namespace XmlPointer.Location

open XmlPointer.Unicode

/-- Why a domain cannot be written in ASCII. -/
inductive DomainError where
  /-- The IDNA table does not allow the character. -/
  | disallowed (c : Char)
  /-- A host may not hold the ASCII character. -/
  | denied (c : Char)
  /-- A label written as `xn--` does not read back as Punycode of a label beyond ASCII. -/
  | malformedPunycode (label : String)
  /-- A label written as `xn--` stands for a label that is not normalized or holds a character
  that is not valid. -/
  | invalidPunycode (label : String)
  | leadingMark (label : String)
  | misplacedJoiner (label : String)
  | bidiRule (label : String)
  /-- A label beyond ASCII is longer than Punycode is written for. -/
  | labelTooLong (label : String)
  deriving Repr, DecidableEq

/-- ASCII characters that a host may not hold: controls, space, DEL and the URL delimiters. -/
def isDeniedInDomain (c : Char) : Bool :=
  c.toNat ≤ 0x20 || c.toNat = 0x7F ||
    ['%', '#', '/', ':', '<', '>', '?', '@', '[', '\\', ']', '^', '|'].contains c

def maxUnicodeLabel : Nat := 1000
def maxPunycodeLabel : Nat := 2000

/-- The characters of a domain mapped by the IDNA table and normalized. -/
def mapAndNormalize (cs : List Char) : Except DomainError (List Char) := do
  let mapped ← cs.mapM fun c => match mapDomainChar c with
    | some m => pure m
    | none => throw (.disallowed c)
  let normal := nfc mapped.flatten
  match normal.find? isDeniedInDomain with
  | some c => throw (.denied c)
  | none => pure normal

/-! ## Labels -/

/-- The character passes for a joiner before it: the first one, going back over transparent
characters, joins on its left or both sides. -/
def joinsBefore : List Char → Bool
  | [] => false
  | c :: cs =>
    match joiningType c with
    | .leftJoining | .dualJoining => true
    | .transparent => joinsBefore cs
    | _ => false

/-- The first character, going on over transparent characters, joins on its right or both
sides. -/
def joinsAfter : List Char → Bool
  | [] => false
  | c :: cs =>
    match joiningType c with
    | .rightJoining | .dualJoining => true
    | .transparent => joinsAfter cs
    | _ => false

def isVirama (c : Char) : Bool :=
  combiningClass c = 9

/-- The joiners of a label stand where the rules allow them: each after a virama, or a zero
width non-joiner between a character joining towards it and one joining back, with transparent
characters between. `before` holds the characters before, nearest first. -/
def joinersAllowed : List Char → List Char → Bool
  | _, [] => true
  | before, c :: after =>
    let ok :=
      if c.toNat = 0x200C || c.toNat = 0x200D then
        match before with
        | [] => false
        | b :: _ => isVirama b || (c.toNat = 0x200C && joinsBefore before && joinsAfter after)
      else true
    ok && joinersAllowed (c :: before) after

/-- A label as read: what it stands for, and its ASCII text when it was written as `xn--`. -/
structure Label where
  chars : List Char
  ace : Option String
  deriving Repr, DecidableEq

/-- What a label stands for: itself, or for a label written as `xn--`, the label its Punycode
reads back as, which must be beyond ASCII, normalized and valid, and must not itself begin with
`xn--`. -/
def readLabel (l : List Char) : Except DomainError Label := do
  let text := String.ofList l
  match l with
  | 'x' :: 'n' :: '-' :: '-' :: payload =>
    if payload.any (·.toNat ≥ 0x80) || payload.getLast? == some '-' || payload.isEmpty ||
        payload.length > maxPunycodeLabel then
      throw (.malformedPunycode text)
    let some cps := punyDecode payload | throw (.malformedPunycode text)
    let decoded := cps.map Char.ofNat
    if !isNfc decoded || !decoded.all isDomainValid ||
        decoded.any (fun c => c = '.' || isDeniedInDomain c) ||
        decoded.take 4 == ['x', 'n', '-', '-'] then
      throw (.invalidPunycode text)
    pure ⟨decoded, some text⟩
  | _ => pure ⟨l, none⟩

/-- A label passes the checks of every label: no leading mark, and joiners only where allowed;
a label beyond ASCII is not too long to write. -/
def checkLabel (l : Label) : Except DomainError Unit := do
  let text := l.ace.getD (String.ofList l.chars)
  if (l.chars.head?.map isMark).getD false then throw (.leadingMark text)
  if !joinersAllowed [] l.chars then throw (.misplacedJoiner text)
  if l.chars.any (·.toNat ≥ 0x80) && l.chars.length > maxUnicodeLabel then
    throw (.labelTooLong text)

/-! ## The bidirectional rule -/

/-- The classes that may stand in a label written left to right. -/
def allowedLeftToRight : BidiClass → Bool
  | .leftToRight | .europeanNumber | .europeanSeparator | .commonSeparator
  | .europeanTerminator | .otherNeutral | .boundaryNeutral | .nonspacingMark => true
  | _ => false

/-- The classes that may stand in a label written right to left. -/
def allowedRightToLeft : BidiClass → Bool
  | .rightToLeft | .arabicLetter | .arabicNumber | .europeanNumber | .europeanSeparator
  | .commonSeparator | .europeanTerminator | .otherNeutral | .boundaryNeutral
  | .nonspacingMark => true
  | _ => false

/-- A label keeps the bidirectional rule of IDNA (RFC 5893): it begins with a strong letter; a
label begun left to right holds only what may stand in it and ends, before any nonspacing marks,
with a letter written left to right or a European number; a label begun right to left holds only
what may stand in it, ends, before any nonspacing marks, with a letter written right to left or a
number, and does not hold both European and Arabic numbers. The empty label keeps it. -/
def keepsBidiRule (label : List Char) : Bool :=
  match label.map bidiClass with
  | [] => true
  | first :: rest =>
    let classes := first :: rest
    let last := (classes.reverse.find? (· != .nonspacingMark)).getD first
    match first with
    | .leftToRight =>
      classes.all allowedLeftToRight && (last == .leftToRight || last == .europeanNumber)
    | .rightToLeft | .arabicLetter =>
      classes.all allowedRightToLeft &&
        [BidiClass.rightToLeft, .arabicLetter, .europeanNumber, .arabicNumber].contains last &&
        !(classes.contains .europeanNumber && classes.contains .arabicNumber)
    | _ => false

def isBidiDomain (labels : List Label) : Bool :=
  labels.any fun l => l.chars.any fun c => (bidiClass c).isRightToLeft

/-! ## Domains -/

/-- The ASCII text of a checked label: as written when it was `xn--`, itself when it is ASCII,
else `xn--` and its Punycode. -/
def Label.ascii (l : Label) : String :=
  match l.ace with
  | some text => text
  | none =>
    if l.chars.all (·.toNat < 0x80) then String.ofList l.chars
    else "xn--" ++ punycode l.chars

/-- A domain in ASCII, or why it cannot be written so. -/
def toAsciiDomain (s : String) : Except DomainError String := do
  let cs ← mapAndNormalize s.toList
  let labels ← (cs.splitOn '.').mapM readLabel
  labels.forM checkLabel
  if isBidiDomain labels then
    match labels.find? (fun l => !keepsBidiRule l.chars) with
    | some l => throw (.bidiRule (l.ace.getD (String.ofList l.chars)))
    | none => pure ()
  pure (".".intercalate (labels.map Label.ascii))

end XmlPointer.Location
