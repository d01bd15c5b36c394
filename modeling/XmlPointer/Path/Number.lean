import XmlPointer.Binary64.Text
import XmlPointer.Binary64.Arith
import XmlPointer.Text.Blank

/-! # Numbers of XPath and their text

An XPath number is written with its shortest digits and never with an exponent; both zeros are
`0`, and NaN and the infinities have their XPath names. A text reads as a number when, blanks
at both ends aside, it is an optional minus and digits with at most one point, at least one of
them a digit; any other text is NaN. -/
namespace XmlPointer.Path

open Binary64

def numberStyle : Style :=
  ⟨"NaN", "Infinity", none, 0, false⟩

def numberText (v : Float) : String :=
  numberStyle.render v

def numberBody (cs : List Char) : Bool :=
  cs.all (fun c => c.isDigit || c = '.') && cs.count '.' ≤ 1 && cs.any Char.isDigit

/-- The value of a digit list with at most one point: all digits as one natural, and the count
of digits after the point. -/
def decimalParts (cs : List Char) : Nat × Nat :=
  let digits := cs.filter Char.isDigit
  let mantissa := digits.foldl (fun acc c => acc * 10 + (c.toNat - '0'.toNat)) 0
  (mantissa, (cs.dropWhile (· ≠ '.')).drop 1 |>.length)

/-- The number that a text stands for, NaN if it is no number. -/
def parseNumber (s : String) : Float :=
  let cs := Text.trimBy Text.isXmlBlank s.toList
  let (negative, body) := match cs with
    | '-' :: rest => (true, rest)
    | _ => (false, cs)
  if numberBody body then
    let parts := decimalParts body
    ofDecimal negative parts.1 parts.2
  else nan

end XmlPointer.Path
