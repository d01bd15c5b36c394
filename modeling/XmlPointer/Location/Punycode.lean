/-! # Punycode

Punycode (RFC 3492) writes a label beyond ASCII in the letters, digits and hyphen of host names:
its ASCII characters first, a `-` after them when there are any, then the other code points in
increasing order, each as the distance from the one before, counted over the places where it
could be inserted. A distance is a variable-length number of base 36 whose digits have thresholds
that follow an adaptive bias. No table of Unicode is needed. -/
namespace XmlPointer.Location

def punyDigit (d : Nat) : Char :=
  if d < 26 then Char.ofNat (0x61 + d) else Char.ofNat (0x30 + d - 26)

/-- The value of a Punycode digit, small or capital. -/
def punyValue (c : Char) : Option Nat :=
  if 'a' ≤ c && c ≤ 'z' then some (c.toNat - 0x61)
  else if 'A' ≤ c && c ≤ 'Z' then some (c.toNat - 0x41)
  else if '0' ≤ c && c ≤ '9' then some (c.toNat - 0x30 + 26)
  else none

def punyThreshold (k bias : Nat) : Nat :=
  if k ≤ bias then 1 else if k ≥ bias + 26 then 26 else k - bias

theorem punyThreshold_pos (k bias : Nat) : 1 ≤ punyThreshold k bias := by
  unfold punyThreshold
  split
  · omega
  · split <;> omega

theorem punyThreshold_le (k bias : Nat) : punyThreshold k bias ≤ 26 := by
  unfold punyThreshold
  split
  · omega
  · split <;> omega

/-- Scales a delta down by 35 until it is at most 455, counting the steps in `k`, and gives the
bias. -/
def punyScale (d k : Nat) : Nat :=
  if d > 455 then punyScale (d / 35) (k + 36) else k + 36 * d / (d + 38)
termination_by d
decreasing_by omega

/-- The bias after a delta, with `points` code points handled. -/
def punyAdapt (delta points : Nat) (first : Bool) : Nat :=
  let d := if first then delta / 700 else delta / 2
  punyScale (d + d / points) 0

/-! ## Writing -/

/-- The digits of a delta `q`, from position `k` on. -/
def punyDigits (bias k q : Nat) : List Char :=
  let t := punyThreshold k bias
  if q < t then [punyDigit q]
  else punyDigit (t + (q - t) % (36 - t)) :: punyDigits bias (k + 36) ((q - t) / (36 - t))
termination_by q
decreasing_by
  have := punyThreshold_pos k bias
  have := punyThreshold_le k bias
  exact Nat.lt_of_le_of_lt (Nat.div_le_self _ _) (by omega)

/-- Where writing stands: the digits written, the delta, the bias and the count of code points
handled. -/
structure PunyWriting where
  out : List Char
  delta : Nat
  bias : Nat
  handled : Nat

/-- Writing goes past one code point of the label in the round of `m`: a smaller one adds to the
delta, `m` itself writes the delta. -/
def PunyWriting.visit (basic m : Nat) (w : PunyWriting) (c : Nat) : PunyWriting :=
  if c < m then { w with delta := w.delta + 1 }
  else if c = m then
    { out := w.out ++ punyDigits w.bias 36 w.delta, delta := 0,
      bias := punyAdapt w.delta (w.handled + 1) (w.handled == basic), handled := w.handled + 1 }
  else w

/-- The rounds of writing, one for each code point beyond ASCII in increasing order, `n` the
code point after the last round's. -/
def punyRounds (cps : List Nat) (basic : Nat) : List Nat → Nat → PunyWriting → PunyWriting
  | [], _, w => w
  | m :: ms, n, w =>
    let w := cps.foldl (PunyWriting.visit basic m) { w with delta := w.delta + (m - n) * (w.handled + 1) }
    punyRounds cps basic ms (m + 1) { w with delta := w.delta + 1 }

/-- The Punycode of a label. -/
def punycode (label : List Char) : String :=
  let cps := label.map Char.toNat
  let basic := label.filter (·.toNat < 0x80)
  let wide := ((cps.filter (· ≥ 0x80)).mergeSort fun a b => decide (a ≤ b)).eraseDups
  let w := punyRounds cps basic.length wide 128 ⟨[], 0, 72, basic.length⟩
  String.ofList (basic ++ (if basic.isEmpty then [] else ['-']) ++ w.out)

/-! ## Reading -/

/-- Reads one delta from digits at position `k`, added to `i` with the weight `w`: the new `i`
and the digits left. -/
def punyReadDelta (bias : Nat) : List Char → Nat → Nat → Nat → Option (Nat × List Char)
  | [], _, _, _ => none
  | c :: rest, k, i, w => do
    let d ← punyValue c
    let i := i + d * w
    let t := punyThreshold k bias
    if d < t then some (i, rest) else punyReadDelta bias rest (k + 36) i (w * (36 - t))

theorem punyReadDelta_length (bias : Nat) :
    ∀ (cs : List Char) (k i w : Nat) (r : Nat × List Char),
      punyReadDelta bias cs k i w = some r → r.2.length < cs.length
  | [], _, _, _, _, h => by simp [punyReadDelta] at h
  | c :: rest, k, i, w, r, h => by
    simp only [punyReadDelta] at h
    cases hv : punyValue c with
    | none => simp [hv] at h
    | some d =>
      simp only [hv, Option.bind_eq_bind, Option.bind_some] at h
      split at h
      · cases h
        simp
      · have := punyReadDelta_length bias rest _ _ _ r h
        simp only [List.length_cons]
        omega

/-- Inserts the code points that the digits stand for into `out`, the last at `i`, `n` the last
code point inserted. -/
def punyInsert (bias n i : Nat) (out : List Nat) : List Char → Option (List Nat)
  | [] => some out
  | c :: rest =>
    match _h : punyReadDelta bias (c :: rest) 36 i 1 with
    | none => none
    | some (i', left) =>
      let len := out.length + 1
      let n := n + i' / len
      let pos := i' % len
      if n > 0x10FFFF || (0xD800 ≤ n && n ≤ 0xDFFF) then none
      else
        punyInsert (punyAdapt (i' - i) len (i == 0)) n (pos + 1) (out.take pos ++ n :: out.drop pos)
          left
termination_by cs => cs.length
decreasing_by
  have := punyReadDelta_length bias (c :: rest) 36 i 1 (i', left) _h
  simpa using this

/-- The code points of a label written in Punycode: the basic ones before the last `-`, then
the ones its digits insert; none when the digits are malformed. A `-` that begins the label
follows no basic code point, so it is read as a digit, and is not one. -/
def punyDecode (s : List Char) : Option (List Nat) :=
  let (basic, digits) := match s.reverse.span (· ≠ '-') with
    | (revDigits, '-' :: revBasic@(_ :: _)) => (revBasic.reverse, revDigits.reverse)
    | _ => ([], s)
  if basic.any (·.toNat ≥ 0x80) then none
  else punyInsert 72 128 0 (basic.map Char.toNat) digits

end XmlPointer.Location
