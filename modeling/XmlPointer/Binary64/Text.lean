import XmlPointer.Binary64.Shortest

/-! # Number text

A `Style` fixes the decisions of one number format around the shortest digits: the words for
NaN and infinity, which magnitudes are written positionally, how many fraction digits are
always written, and whether a negative zero keeps its sign. -/
namespace XmlPointer.Binary64

/-- The decisions of one number format. -/
structure Style where
  nan : String
  infinity : String
  /-- Leading-digit exponents `e` with `lo ≤ e < hi` are written positionally, others with an
  exponent; `none` writes every magnitude positionally. Zero is always positional. -/
  positional : Option (Int × Int)
  /-- Least count of digits after the point in positional text. -/
  minFraction : Nat
  /-- A negative zero keeps its minus sign. -/
  signedZero : Bool

def intText (e : Int) : String :=
  (if e < 0 then "-" else "") ++ String.ofList (Nat.toDigits 10 e.natAbs)

/-- Positional text of a decimal, with at least `minFraction` digits after the point. -/
def Dec.positional (d : Dec) (minFraction : Nat) : String :=
  let ds := Nat.toDigits 10 d.digits
  let parts : List Char × List Char :=
    if 0 ≤ d.exp then (ds ++ List.replicate d.exp.toNat '0', [])
    else
      let n := (-d.exp).toNat
      if n < ds.length then (ds.take (ds.length - n), ds.drop (ds.length - n))
      else (['0'], List.replicate (n - ds.length) '0' ++ ds)
  let frac := parts.2 ++ List.replicate (minFraction - parts.2.length) '0'
  String.ofList (if frac.isEmpty then parts.1 else parts.1 ++ '.' :: frac)

def Dec.lead (d : Dec) : Int :=
  ((Nat.toDigits 10 d.digits).length : Int) - 1 + d.exp

/-- Text with one digit before the point and the exponent after `e`: `1e16`, `1.5e-7`. -/
def Dec.scientific (d : Dec) : String :=
  let mantissa : List Char :=
    match Nat.toDigits 10 d.digits with
    | [] => []
    | [c] => [c]
    | c :: rest => c :: '.' :: rest
  String.ofList mantissa ++ "e" ++ intText d.lead

/-- The text of a float in a style, from its shortest digits. -/
def Style.render (s : Style) (v : Float) : String :=
  match kind v with
  | .nan => s.nan
  | .infinite negative => (if negative then "-" else "") ++ s.infinity
  | .finite negative x =>
    let d := x.shortest
    let sign := if negative && (s.signedZero || x.m ≠ 0) then "-" else ""
    let body :=
      match s.positional with
      | none => d.positional s.minFraction
      | some (lo, hi) =>
        if x.m = 0 || (decide (lo ≤ d.lead) && decide (d.lead < hi)) then d.positional s.minFraction
        else d.scientific
    sign ++ body

end XmlPointer.Binary64
