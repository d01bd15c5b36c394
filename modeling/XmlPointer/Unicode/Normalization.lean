import XmlPointer.Unicode.CombiningClass
import XmlPointer.Unicode.Decomposition

/-! # Normalization Form C

A text in Normalization Form C is its canonical decomposition with the marks after each starter
put in order of their combining class, and then each character joined to the last starter before
it when the two are a primary composite and nothing between them blocks the join: a starter, or a
mark of the same class or higher. Hangul syllables decompose into their jamo and compose back by
arithmetic. -/
namespace XmlPointer.Unicode

def syllableBase : Nat := 0xAC00

/-- The first leading consonant, vowel and trailing consonant of the Hangul jamo (the trailing
base stands for no consonant). -/
def leadBase : Nat := 0x1100
def vowelBase : Nat := 0x1161
def trailBase : Nat := 0x11A7

/-- The counts of leading consonants, vowels and trailing places (with none). -/
def leadCount : Nat := 19
def vowelCount : Nat := 21
def trailCount : Nat := 28

def syllableCount : Nat := leadCount * vowelCount * trailCount

def isSyllable (n : Nat) : Bool :=
  syllableBase ≤ n && n < syllableBase + syllableCount

/-- The jamo of a Hangul syllable. -/
def syllableJamo (n : Nat) : List Nat :=
  let s := n - syllableBase
  let lead := leadBase + s / (vowelCount * trailCount)
  let vowel := vowelBase + s % (vowelCount * trailCount) / trailCount
  let trail := s % trailCount
  if trail = 0 then [lead, vowel] else [lead, vowel, trailBase + trail]

/-- The canonical decomposition of a code point in at most `fuel` steps; three steps are the most
any character takes. -/
def decomposeWith : Nat → Nat → List Nat
  | 0, n => [n]
  | fuel + 1, n =>
    if isSyllable n then syllableJamo n
    else
      match decomposition? n with
      | some (.single c) => decomposeWith fuel c
      | some (.pair a b) => decomposeWith fuel a ++ [b]
      | none => [n]

def decompose (n : Nat) : List Nat :=
  decomposeWith 4 n

def sortByClass (run : List Nat) : List Nat :=
  run.mergeSort fun a b => decide (combiningClassOf a ≤ combiningClassOf b)

def canonicalOrder (ns : List Nat) : List Nat :=
  (ns.splitBy fun a b => combiningClassOf a != 0 && combiningClassOf b != 0).flatMap sortByClass

/-- The composite of a starter and the character after it: a Hangul syllable from a leading
consonant and a vowel, or from a syllable without trailing consonant and one; else the primary
composite of the pair. -/
def composePair (a b : Nat) : Option Nat :=
  if leadBase ≤ a && a < leadBase + leadCount && vowelBase ≤ b && b < vowelBase + vowelCount then
    some (syllableBase + ((a - leadBase) * vowelCount + (b - vowelBase)) * trailCount)
  else if isSyllable a && (a - syllableBase) % trailCount = 0 &&
      trailBase < b && b < trailBase + trailCount then
    some (a + (b - trailBase))
  else composition? a b

/-- Where composing stands: the text before the last starter, last first; the last starter, if
one has come; the characters after it that did not join it, last first; and the class of the last
of them, 0 when there are none. -/
structure Composing where
  done : List Nat := []
  starter : Option Nat := none
  after : List Nat := []
  lastClass : Nat := 0

/-- Composing goes on with one more character of a text in canonical order. -/
def Composing.push (s : Composing) (n : Nat) : Composing :=
  let cc := combiningClassOf n
  let joined := match s.starter with
    | some st => if s.after.isEmpty || s.lastClass < cc then composePair st n else none
    | none => none
  match joined, s.starter with
  | some c, _ => { s with starter := some c }
  | none, some st =>
    if cc = 0 then { done := s.after ++ st :: s.done, starter := some n }
    else { s with after := n :: s.after, lastClass := cc }
  | none, none =>
    if cc = 0 then { s with starter := some n } else { s with done := n :: s.done }

def Composing.text (s : Composing) : List Nat :=
  (s.after ++ s.starter.toList ++ s.done).reverse

def compose (ns : List Nat) : List Nat :=
  (ns.foldl Composing.push {}).text

def nfd (cs : List Char) : List Char :=
  (canonicalOrder (cs.flatMap fun c => decompose c.toNat)).map Char.ofNat

def nfc (cs : List Char) : List Char :=
  (compose (canonicalOrder (cs.flatMap fun c => decompose c.toNat))).map Char.ofNat

def isNfc (cs : List Char) : Bool :=
  nfc cs == cs

end XmlPointer.Unicode
