/-! # Packed tables of character data

The tables of the Unicode character database that this library needs are kept as text: a run of
numbers, each written in hexadecimal with every digit but its last moved up to the letters `g`
to `v`. A number ends at its first plain hexadecimal digit, so no separators are needed, and the
text holds only letters and digits.

A property that is constant on ranges of code points is packed as runs, each a length and the
code of a value, the first run starting at code point 0. A property given at some code points
only is a `KeyTable`, searched by code point. -/
namespace XmlPointer.Unicode

/-- The numbers of a packed text, after the digits `acc` of a number begun, prepended in reverse
to `out`. -/
def unpackFrom : List Char → Nat → List Nat → List Nat
  | [], _, out => out
  | c :: cs, acc, out =>
    let n := c.toNat
    if 0x67 ≤ n && n ≤ 0x76 then unpackFrom cs (acc * 16 + (n - 0x67)) out
    else
      let d := if n ≤ 0x39 then n - 0x30 else n - 0x57
      unpackFrom cs 0 ((acc * 16 + d) :: out)

def unpack (s : String) : List Nat :=
  (unpackFrom s.toList 0 []).reverse

/-- The index of the last key at most `n`, searching between `lo`, whose key is at most `n` or
which is 0, and `hi`. -/
def lastAtMost (keys : Array Nat) (n lo hi : Nat) : Nat :=
  if lo + 1 < hi then
    let mid := (lo + hi) / 2
    if (keys[mid]?.getD 0) ≤ n then lastAtMost keys n mid hi else lastAtMost keys n lo mid
  else lo
termination_by hi - lo

/-- A property constant on ranges of code points: the first code point of each range, in
increasing order from 0, and the value on it. -/
structure RangeTable (α : Type) where
  starts : Array Nat
  values : Array α

/-- The ranges of runs, each a length and a value, the first from `start`, pushed onto
`acc`. -/
def rangesOfRuns {α : Type} (code : Nat → α) :
    Nat → List Nat → Array Nat × Array α → Array Nat × Array α
  | start, len :: v :: rest, (starts, values) =>
    rangesOfRuns code (start + len) rest (starts.push start, values.push (code v))
  | _, _, acc => acc

/-- The table of packed runs, each a length and the code of a value. -/
def RangeTable.ofRuns {α : Type} (code : Nat → α) (nums : List Nat) : RangeTable α :=
  let (starts, values) := rangesOfRuns code 0 nums (#[], #[])
  ⟨starts, values⟩

def RangeTable.get {α : Type} (t : RangeTable α) (fallback : α) (n : Nat) : α :=
  (t.values[lastAtMost t.starts n 0 t.starts.size]?).getD fallback

/-- A property given at some code points: the code points in increasing order and the value at
each. -/
structure KeyTable (α : Type) where
  keys : Array Nat
  values : Array α

/-- The value at a code point, if the table gives one. -/
def KeyTable.find? {α : Type} (t : KeyTable α) (n : Nat) : Option α :=
  let i := lastAtMost t.keys n 0 t.keys.size
  if t.keys[i]? = some n then t.values[i]? else none

end XmlPointer.Unicode
