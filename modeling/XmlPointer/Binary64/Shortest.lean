import XmlPointer.Binary64.Basic

/-! # Shortest decimal digits

The reals that round to a binary64 value form an interval; a decimal *reads back* when it lies
in it. `Binary.shortest` picks, among the decimals that read back, one with the fewest digits,
and of those the nearer to the value; an exact tie between two goes to the upper one. All
comparisons are exact products of naturals. -/
namespace XmlPointer.Binary64

/-- The decimal `digits * 10^exp`. -/
structure Dec where
  digits : Nat
  exp : Int
  deriving Repr, DecidableEq

/-- Compares `a * 10^i` with `n * 2^j`, exactly. -/
def cmpScaled (a : Nat) (i : Int) (n : Nat) (j : Int) : Ordering :=
  compare (a * Nat.pow 10 i.toNat * Nat.pow 2 (-j).toNat)
    (n * Nat.pow 2 j.toNat * Nat.pow 10 (-i).toNat)

/-- The decimal lies among the reals that round to `x` (to nearest, ties to even): the ends
are halfway to the neighbours, and belong to the interval exactly when `m` is even. -/
def Binary.readsBack (x : Binary) (d : Dec) : Bool :=
  let lo := if x.narrowBelow then 4 * x.m - 1 else 4 * x.m - 2
  let hi := 4 * x.m + 2
  let incl := x.m % 2 == 0
  let cl := cmpScaled d.digits d.exp lo (x.q - 2)
  let ch := cmpScaled d.digits d.exp hi (x.q - 2)
  (cl == .gt || (incl && cl == .eq)) && (ch == .lt || (incl && ch == .eq))

def Binary.below (x : Binary) (k : Int) : Bool :=
  cmpScaled 1 k x.m x.q == .gt

def Binary.scaleGuess (x : Binary) : Int :=
  ((Nat.log2 x.m : Int) + x.q) * 30103 / 100000

/-- Steps the exponent up until the magnitude lies below `10^k`. -/
def Binary.raise (x : Binary) : Nat → Int → Int
  | 0, k => k
  | n + 1, k => if x.below k then k else x.raise n (k + 1)

/-- Steps the exponent down while the magnitude still lies below `10^(k-1)`. -/
def Binary.lower (x : Binary) : Nat → Int → Int
  | 0, k => k
  | n + 1, k => if x.below (k - 1) then x.lower n (k - 1) else k

def Binary.scale (x : Binary) : Int :=
  x.lower 4 (x.raise 4 x.scaleGuess)

/-- The two decimals on the grid `10^g` around `x`, `⌊x / 10^g⌋` and the next one, the nearer
first; on an exact tie the upper one comes first. -/
def Binary.neighbours (x : Binary) (g : Int) : List Dec :=
  let num := x.m * Nat.pow 2 x.q.toNat * Nat.pow 10 (-g).toNat
  let den := Nat.pow 2 (-x.q).toNat * Nat.pow 10 g.toNat
  let lo := num / den
  if 2 * num < (2 * lo + 1) * den then [⟨lo, g⟩, ⟨lo + 1, g⟩] else [⟨lo + 1, g⟩, ⟨lo, g⟩]

/-- Tries grids of `n`, `n + 1`, … significant digits below `10^k`; the first grid with a
decimal that reads back gives the answer. -/
def Binary.search (x : Binary) (k : Int) : Nat → Nat → Option Dec
  | 0, _ => none
  | fuel + 1, n =>
    match (x.neighbours (k - n)).find? x.readsBack with
    | some d => some d
    | none => x.search k fuel (n + 1)

/-- Moves trailing zeros of the digits into the exponent. -/
def Dec.trim (d : Dec) : Dec :=
  if h : d.digits ≠ 0 ∧ d.digits % 10 = 0 then Dec.trim ⟨d.digits / 10, d.exp + 1⟩ else d
termination_by d.digits
decreasing_by exact Nat.div_lt_self (Nat.pos_of_ne_zero h.1) (by decide)

def Binary.exact (x : Binary) : Dec :=
  if 0 ≤ x.q then ⟨x.m * Nat.pow 2 x.q.toNat, 0⟩ else ⟨x.m * Nat.pow 5 (-x.q).toNat, x.q⟩

def Binary.shortest (x : Binary) : Dec :=
  if x.m = 0 then ⟨0, 0⟩ else ((x.search x.scale 17 1).getD x.exact).trim

end XmlPointer.Binary64
