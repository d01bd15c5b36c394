import XmlPointer.Binary64.Basic

/-! # Exact binary64 operations beyond the hardware ones

The truncated remainder is computed exactly on the magnitudes: it is always representable, so
no rounding takes place. Reading a decimal goes through `Float.ofScientific`, which rounds to
nearest. -/
namespace XmlPointer.Binary64

def nan : Float := 0.0 / 0.0

/-- The remainder of `x` by `y` with the quotient truncated toward zero: the sign of `x` and a
magnitude below `|y|`. It is NaN when `y` is zero, `x` is infinite or either is NaN, and `x`
itself when `y` is infinite. -/
def remainder (x y : Float) : Float :=
  match kind x, kind y with
  | .finite negative a, .finite _ b =>
    if b.m = 0 then nan
    else if a.m = 0 then x
    else
      let q := min a.q b.q
      let ax := a.m * Nat.pow 2 (a.q - q).toNat
      let bx := b.m * Nat.pow 2 (b.q - q).toNat
      Float.ofBits (Binary.toBits negative (ax % bx) q)
  | .finite _ _, .infinite _ => x
  | _, _ => nan

/-- The binary64 value nearest to `±(digits / 10^scale)`; the sign is kept on a zero. -/
def ofDecimal (negative : Bool) (digits scale : Nat) : Float :=
  let v := Float.ofScientific digits true scale
  if negative then -v else v

end XmlPointer.Binary64
