/-! # Binary64 values by their bits

A float is read through `Float.toBits` as NaN, an infinity, or a signed finite magnitude
`m * 2^q`. The magnitude view is what the digit search and the exact remainder compute on;
`Binary.toBits` writes a magnitude back when it is representable. -/
namespace XmlPointer.Binary64

/-- A finite non-negative binary64 magnitude, `m * 2^q`. -/
structure Binary where
  m : Nat
  q : Int
  /-- The gap to the value below is half the gap above: an exact power of two above the least
  normal value. -/
  narrowBelow : Bool
  deriving Repr, DecidableEq

/-- The magnitude that the low 63 bits of a finite value stand for. -/
def Binary.ofBits (b : UInt64) : Binary :=
  let e := ((b >>> 52) &&& 0x7FF).toNat
  let f := (b &&& 0xFFFFFFFFFFFFF).toNat
  if e = 0 then ⟨f, -1074, false⟩ else ⟨Nat.pow 2 52 + f, (e : Int) - 1075, f == 0 && decide (e > 1)⟩

/-- What a float is: NaN, an infinity, or a sign with a finite magnitude. -/
inductive Kind where
  | nan
  | infinite (negative : Bool)
  | finite (negative : Bool) (x : Binary)
  deriving Repr, DecidableEq

/-- The kind of a float, read off its bits. -/
def kind (v : Float) : Kind :=
  let b := v.toBits
  let negative := b >>> 63 == 1
  if (b >>> 52) &&& 0x7FF == 0x7FF then
    if b &&& 0xFFFFFFFFFFFFF == 0 then .infinite negative else .nan
  else .finite negative (Binary.ofBits b)

/-- The bits of `±(r * 2^q)` for `r < 2^53` and `q ≥ -1074`, where that value is a binary64
value: the mantissa is shifted up to 53 bits unless the exponent would leave the range. -/
def Binary.toBits (negative : Bool) (r : Nat) (q : Int) : UInt64 :=
  let sign : UInt64 := if negative then 0x8000000000000000 else 0
  if r = 0 then sign
  else
    let s := min (52 - Nat.log2 r) (q + 1074).toNat
    let r' := r <<< s
    let q' := q - s
    if r' < Nat.pow 2 52 then sign ||| r'.toUInt64
    else sign ||| ((q' + 1075).toNat.toUInt64 <<< 52) ||| (r' - Nat.pow 2 52).toUInt64

/-- Sixteen lowercase hexadecimal digits of the bits, or `NaN` for every NaN. -/
def bitsText (v : Float) : String :=
  match kind v with
  | .nan => "NaN"
  | _ =>
    let digits := Nat.toDigits 16 v.toBits.toNat
    String.ofList (List.replicate (16 - digits.length) '0' ++ digits)

end XmlPointer.Binary64
