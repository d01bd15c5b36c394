import Mathlib
import XmlPointer.Binary64.Arith

/-! # Integers as binary64 values

A positive integer below `2^53` has an exact binary64 value: its bits moved up to a 53-bit
mantissa, with the exponent that scales them back (`natForm`). Reading it as a decimal with no
fraction digits, `Float.ofScientific n true 0`, and converting it as a natural number,
`Float.ofNat n`, both give that value, since the fast path multiplies or divides by the exact
value one. An integer of 54 bits or more converts to a value with a positive exponent (or to an
infinity, or through rounding to a zero or a subnormal), and the unpacked form of a value is
canonical, so such a value never equals a smaller integer. Together: a decimal integer below
`2^53` equals the conversion of a natural number exactly when the two are the same number,
which is how a numeric predicate of a path picks a position. -/
namespace XmlPointer.Binary64

open Float.Model Float.Model.UnpackedFloat

section Bits

theorem log2_mul_pow {m : Nat} (hm : m ≠ 0) (j : Nat) : (m * 2 ^ j).log2 = m.log2 + j := by
  have hpos : 0 < 2 ^ j := Nat.two_pow_pos j
  refine (Nat.log2_eq_iff (Nat.mul_ne_zero hm (Nat.ne_of_gt hpos))).mpr ⟨?_, ?_⟩
  · rw [Nat.pow_add]
    exact Nat.mul_le_mul_right _ (Nat.log2_self_le hm)
  · rw [show m.log2 + j + 1 = (m.log2 + 1) + j by omega, Nat.pow_add]
    exact Nat.mul_lt_mul_of_pos_right Nat.lt_log2_self hpos

theorem pos_of_log2 {m : Nat} (hm : m.log2 = 52) : 0 < m := by
  rcases Nat.eq_zero_or_pos m with h | h
  · simp [h] at hm
  · exact h

theorem log2_le_of_lt {k : Nat} (hk : 0 < k) (hk' : k < 2 ^ 53) : k.log2 ≤ 52 := by
  have := (Nat.log2_lt (Nat.ne_of_gt hk)).mpr hk'
  omega

theorem mantissa_toNat {m : Nat} (hm : m.log2 = 52) : (1#1 ++ BitVec.ofNat 52 m).toNat = m := by
  have hlt : m < 2 ^ 53 := by
    have := Nat.lt_log2_self (n := m)
    rwa [hm] at this
  have hge : 2 ^ 52 ≤ m := by
    have := Nat.log2_self_le (Nat.ne_of_gt (pos_of_log2 hm))
    rwa [hm] at this
  have hlow : (BitVec.ofNat 52 m).toNat = m - 2 ^ 52 := by
    rw [BitVec.toNat_ofNat, Nat.mod_eq_sub_mod hge, Nat.mod_eq_of_lt (by omega)]
  rw [BitVec.toNat_append, hlow, ← Nat.shiftLeft_add_eq_or_of_lt (by omega), Nat.shiftLeft_eq]
  simp
  omega

theorem ofNat_ne_of_toNat_ne {b : Nat} {x : BitVec 11} (hb : b < 2048) (hx : x.toNat ≠ b) :
    BitVec.ofNat 11 b ≠ x := by
  intro h
  apply hx
  rw [← h, BitVec.toNat_ofNat, Nat.mod_eq_of_lt hb]

end Bits

section Rounding

theorem shiftRight_mul_pow (m s : Nat) :
    ExtendedMantissa.mk (m * 2 ^ s) false false >>> s = ExtendedMantissa.mk m false false := by
  induction s generalizing m with
  | zero => simp [HShiftRight.hShiftRight, Nat.repeat]
  | succ s ih =>
    change ExtendedMantissa.shiftRightOne (ExtendedMantissa.mk (m * 2 ^ (s + 1)) false false >>> s) = _
    rw [show m * 2 ^ (s + 1) = (2 * m) * 2 ^ s by rw [Nat.pow_succ]; ac_rfl, ih]
    simp [ExtendedMantissa.shiftRightOne]

@[simp] theorem shiftRight_zero (em : ExtendedMantissa) : em >>> 0 = em := rfl

theorem finite_congr {s s' : Sign} {m m' : Nat} {e e' : Int} {h : 0 < m} {h' : 0 < m'}
    (hs : s = s') (hm : m = m') (he : e = e') : finite s m e h = finite s' m' e' h' := by
  subst hs hm he
  rfl

theorem roundWithAccuracy_mul_pow {s : Sign} {m : Nat} {e : Int} (hm : m.log2 = 52)
    (he : -1074 ≤ e) (j : Nat) :
    roundWithAccuracy Format.binary64 s (m * 2 ^ j) (e - j) .exact =
      .finite s m e (pos_of_log2 hm) := by
  have hlog : (m * 2 ^ j).log2 = 52 + j := by
    rw [log2_mul_pow (Nat.ne_of_gt (pos_of_log2 hm)), hm]
  have ht₁ : Format.binary64.targetExponent (totalExponent (m * 2 ^ j) (e - j)) = e := by
    simp only [Format.targetExponent, totalExponent, hlog, Format.mantissaBits,
      Format.minExponent]
    omega
  have ht₂ : Format.binary64.targetExponent (totalExponent m e) = e := by
    simp only [Format.targetExponent, totalExponent, hm, Format.mantissaBits, Format.minExponent]
    omega
  have hj : (e - (e - (j : Int))).toNat = j := by omega
  have hm0 : m ≠ 0 := Nat.ne_of_gt (pos_of_log2 hm)
  simp only [roundWithAccuracy, shiftToTargetExponent, shiftToExponent, ht₁, hj,
    ExtendedMantissa.ofMantissaAndAccuracy, shiftRight_mul_pow, ExtendedMantissa.roundedMantissa,
    ExtendedMantissa.accuracy, Accuracy.roundToNearestEven, Int.sub_add_cancel, ht₂, Int.sub_self,
    Int.toNat_zero, shiftRight_zero, hm0, Int.ofNat_zero, Int.add_zero, ↓reduceDIte]

theorem roundWithAccuracy_normal {s : Sign} {m : Nat} {e : Int} (hm : m.log2 = 52)
    (he : -1074 ≤ e) :
    roundWithAccuracy Format.binary64 s m e .exact = .finite s m e (pos_of_log2 hm) := by
  simpa using roundWithAccuracy_mul_pow (s := s) hm he 0

theorem zero_or_finite_of_dite {s : Sign} {m : Nat} {e : Int} {r : UnpackedFloat}
    (hr : (if h : m = 0 then UnpackedFloat.zero s
      else .finite s m e (Nat.pos_of_ne_zero h)) = r) :
    r = .zero s ∨ ∃ h, r = .finite s m e h := by
  by_cases hm : m = 0
  · rw [dif_pos hm] at hr
    exact .inl hr.symm
  · rw [dif_neg hm] at hr
    exact .inr ⟨_, hr.symm⟩

theorem roundWithAccuracy_cases (s : Sign) (M : Nat) (E : Int) (a : Accuracy) :
    roundWithAccuracy Format.binary64 s M E a = .zero s ∨
      ∃ m e h, roundWithAccuracy Format.binary64 s M E a = .finite s m e h ∧
        Format.binary64.targetExponent (totalExponent M E) ≤ e := by
  generalize hr : roundWithAccuracy Format.binary64 s M E a = r
  simp only [roundWithAccuracy, shiftToTargetExponent, shiftToExponent] at hr
  rcases zero_or_finite_of_dite hr with rfl | ⟨h, rfl⟩
  · exact .inl rfl
  · exact .inr ⟨_, _, h, rfl, by omega⟩

end Rounding

section Packing

@[simp] theorem sign_ofBitVec_toBitVec (s : Sign) : Sign.ofBitVec s.toBitVec = s := by
  cases s <;> rfl

theorem unpackSign_packComponents {spec : Format} {sign exponent mantissa} :
    unpackSign (packComponents spec sign exponent mantissa) = sign.toBitVec := by
  ext i hi
  obtain rfl : i = 0 := by omega
  have hlow : ¬ spec.mantissaBitsWithoutImplicit + spec.exponentBits <
      spec.mantissaBitsWithoutImplicit := by omega
  simp [unpackSign, packComponents, BitVec.getLsbD_append, BitVec.getLsbD_eq_getElem,
    BitVec.getElem_append, hlow]

theorem unpack_pack_normal {s : Sign} {m : Nat} {e : Int} (hm : m.log2 = 52) (he : -1074 ≤ e)
    (he' : e ≤ 971) :
    (Float.Model.pack (.finite s m e (pos_of_log2 hm))).unpack = .finite s m e (pos_of_log2 hm) := by
  unfold Float.Model.unpack Float.Model.pack
  simp only [UnpackedFloat.pack, Format.exponentBias, Format.mantissaBits, hm,
    show (2 : Nat) ^ (11 - 1) - 1 = 1023 from rfl, show (2 : Nat) ^ 11 = 2048 from rfl]
  have hbias : ((e + ((1023 : Nat) : Int) + ((52 : Nat) : Int)).toNat : Int) = e + 1075 := by omega
  have hnot : ¬ 2048 ≤ (e + ((1023 : Nat) : Int) + ((52 : Nat) : Int)).toNat + 1 := by omega
  rw [if_neg hnot, if_pos trivial]
  simp only [UnpackedFloat.unpack, unpackExponent_packComponents, unpackMantissa_packComponents,
    unpackSign_packComponents]
  -- the biased exponent lies strictly between the two reserved ones
  generalize (e + ((1023 : Nat) : Int) + ((52 : Nat) : Int)).toNat = b at hbias hnot
  have hb : (BitVec.ofNat 11 b).toNat = b := by
    rw [BitVec.toNat_ofNat]
    exact Nat.mod_eq_of_lt (by omega)
  have hne₁ : BitVec.ofNat 11 b ≠ -1#11 :=
    ofNat_ne_of_toNat_ne (by omega) (by rw [show (-1#11).toNat = 2047 from rfl]; omega)
  have hne₀ : BitVec.ofNat 11 b ≠ 0#11 :=
    ofNat_ne_of_toNat_ne (by omega) (by rw [BitVec.toNat_zero]; omega)
  rw [if_neg hne₁, if_neg hne₀]
  exact finite_congr (sign_ofBitVec_toBitVec s) (mantissa_toNat hm)
    (by rw [hb]; simp [Format.exponentBias]; omega)

theorem unpack_pack_overflow {s : Sign} {m : Nat} {e : Int} (h : 0 < m) (he : 971 < e) :
    (Float.Model.pack (.finite s m e h)).unpack = .infinity s := by
  unfold Float.Model.unpack Float.Model.pack
  simp only [UnpackedFloat.pack, Format.exponentBias, Format.mantissaBits,
    show (2 : Nat) ^ (11 - 1) - 1 = 1023 from rfl, show (2 : Nat) ^ 11 = 2048 from rfl]
  rw [if_pos (by omega)]
  simp [UnpackedFloat.unpack, packedInfinity]

theorem unpack_pack_subnormal {s : Sign} {m : Nat} {e : Int} (h : 0 < m) (hm : m.log2 ≠ 52)
    (he : -1075 ≤ e) (he' : e ≤ 971) :
    (∃ s', (Float.Model.pack (.finite s m e h)).unpack = .zero s') ∨
      ∃ s' m' h', (Float.Model.pack (.finite s m e h)).unpack = .finite s' m' (-1074) h' := by
  unfold Float.Model.unpack Float.Model.pack
  simp only [UnpackedFloat.pack, Format.exponentBias, Format.mantissaBits,
    show (2 : Nat) ^ (11 - 1) - 1 = 1023 from rfl, show (2 : Nat) ^ 11 = 2048 from rfl]
  rw [if_neg (by omega), if_neg (by omega)]
  have hne₁ : (0#11 : BitVec 11) ≠ -1#11 := by decide
  simp only [UnpackedFloat.unpack, unpackExponent_packComponents,
    unpackMantissa_packComponents, unpackSign_packComponents, if_neg hne₁]
  by_cases hz : BitVec.ofNat 52 m = 0#52
  · rw [dif_pos hz]
    exact .inl ⟨_, rfl⟩
  · rw [dif_neg hz, if_pos trivial]
    have hpos : 0 < (BitVec.ofNat 52 m).toNat := by
      refine Nat.pos_of_ne_zero fun h0 => hz ?_
      exact BitVec.eq_of_toNat_eq (by simpa using h0)
    exact .inr ⟨_, _, hpos, finite_congr rfl rfl (by simp [Format.exponentBias])⟩

theorem unpack_pack_exponent {s : Sign} {m : Nat} {e : Int} (h : 0 < m) (he : 1 ≤ e) :
    (∃ s', (Float.Model.pack (.finite s m e h)).unpack = .infinity s') ∨
      (∃ s', (Float.Model.pack (.finite s m e h)).unpack = .zero s') ∨
      ∃ s' m' e' h', (Float.Model.pack (.finite s m e h)).unpack = .finite s' m' e' h' ∧
        (e' = e ∨ e' = -1074) := by
  by_cases hover : 971 < e
  · exact .inl ⟨s, unpack_pack_overflow h hover⟩
  by_cases hnormal : m.log2 = 52
  · exact .inr (.inr ⟨s, m, e, h, unpack_pack_normal hnormal (by omega) (by omega), .inl rfl⟩)
  rcases unpack_pack_subnormal (s := s) (e := e) h hnormal (by omega) (by omega) with
    hz | ⟨s', m', h', hf⟩
  · exact .inr (.inl hz)
  · exact .inr (.inr ⟨s', m', -1074, h', hf, .inr rfl⟩)

end Packing

section Small

theorem normal_log2 {k : Nat} (hk : 0 < k) (hk' : k < 2 ^ 53) :
    (k * 2 ^ (52 - k.log2)).log2 = 52 := by
  rw [log2_mul_pow (Nat.ne_of_gt hk)]
  have := log2_le_of_lt hk hk'
  omega

/-- The binary64 form of a positive integer below `2^53`: its bits moved up to a 53-bit
mantissa, and the exponent that scales them back. -/
def natForm (k : Nat) (hk : 0 < k) (hk' : k < 2 ^ 53) : UnpackedFloat :=
  .finite .positive (k * 2 ^ (52 - k.log2)) ((k.log2 : Int) - 52)
    (pos_of_log2 (normal_log2 hk hk'))

theorem natForm_exponent {k : Nat} (hk : 0 < k) (hk' : k < 2 ^ 53) :
    -52 ≤ (k.log2 : Int) - 52 ∧ (k.log2 : Int) - 52 ≤ 0 := by
  have := log2_le_of_lt hk hk'
  omega

variable {k : Nat} (hk : 0 < k) (hk' : k < 2 ^ 53)

theorem ofNat_eq_natForm : UnpackedFloat.ofNat Format.binary64 k = natForm k hk hk' := by
  have hlog := log2_le_of_lt hk hk'
  have ht : Format.binary64.targetExponent (totalExponent k 0) = (k.log2 : Int) - 52 := by
    simp only [Format.targetExponent, totalExponent, Format.mantissaBits, Format.minExponent]
    omega
  have hcmp : compare (k : Int) 0 = .gt := Int.compare_eq_gt.mpr (by omega)
  have hshift : ((0 : Int) - ((k.log2 : Int) - 52)).toNat = 52 - k.log2 := by omega
  simp only [UnpackedFloat.ofNat, UnpackedFloat.ofInt, UnpackedFloat.normalize, hcmp, UnpackedFloat.round, ht,
    decreaseExponent, hshift, Int.toNat_natCast, Nat.shiftLeft_eq]
  rw [show (0 : Int) - ((52 - k.log2 : Nat) : Int) = (k.log2 : Int) - 52 by omega]
  exact roundWithAccuracy_normal (normal_log2 hk hk') (by omega)

theorem unpack_pack_natForm : (Float.Model.pack (natForm k hk hk')).unpack = natForm k hk hk' := by
  have := natForm_exponent hk hk'
  exact unpack_pack_normal (normal_log2 hk hk') (by omega) (by omega)

theorem toFloat_unpack : k.toUInt64.toFloat.toModel.unpack = natForm k hk hk' := by
  have hmod : k.toUInt64.toNat = k := by
    simp only [Nat.toUInt64_eq]
    exact Nat.mod_eq_of_lt (by omega)
  change (Float.Model.pack (UnpackedFloat.ofNat Format.binary64 k.toUInt64.toNat)).unpack = _
  rw [hmod, ofNat_eq_natForm hk hk', unpack_pack_natForm]

end Small

section One

theorem one_unpack :
    (Float.exactlyRepresentablePowersOfTen[0]).toModel.unpack =
      .finite .positive (2 ^ 52) (-52) (Nat.two_pow_pos 52) := rfl

variable {s : Sign} {m : Nat} {e : Int} (hm : m.log2 = 52)

theorem div_one (he : -1073 ≤ e) :
    UnpackedFloat.div Format.binary64 (.finite s m e (pos_of_log2 hm))
      (.finite .positive (2 ^ 52) (-52) (Nat.two_pow_pos 52)) = .finite s m e (pos_of_log2 hm) := by
  have ht : Format.binary64.targetExponent (totalExponent m e - totalExponent (2 ^ 52) (-52)) =
      e - 1 := by
    simp only [Format.targetExponent, totalExponent, hm, Nat.log2_two_pow, Format.mantissaBits,
      Format.minExponent]
    omega
  have hshift : (e - -52 - min (e - -52) (e - 1)).toNat = 53 := by omega
  -- the quotient carries one guard bit, and no remainder
  have hquot : (m <<< 53) / 2 ^ 52 = m * 2 ^ 1 := by
    rw [Nat.shiftLeft_eq, show 53 = 1 + 52 from rfl, Nat.pow_add, ← Nat.mul_assoc,
      Nat.mul_div_cancel _ (Nat.two_pow_pos 52)]
  have hrem : (m <<< 53) % 2 ^ 52 = 0 := by
    rw [Nat.shiftLeft_eq, show 53 = 1 + 52 from rfl, Nat.pow_add, ← Nat.mul_assoc, Nat.mul_mod_left]
  simp only [UnpackedFloat.div, divCore, ht, hshift, hquot, hrem, accuracyOfFraction,
    ↓reduceIte]
  rw [show e - 1 = e - ((1 : Nat) : Int) by omega]
  have hsign : s / Sign.positive = s := by cases s <;> rfl
  rw [hsign, show min (e - -52) (e - ((1 : Nat) : Int)) = e - ((1 : Nat) : Int) by omega]
  exact roundWithAccuracy_mul_pow hm (by omega) 1

theorem mul_one (he : -1074 ≤ e) :
    UnpackedFloat.mul Format.binary64 (.finite s m e (pos_of_log2 hm))
      (.finite .positive (2 ^ 52) (-52) (Nat.two_pow_pos 52)) = .finite s m e (pos_of_log2 hm) := by
  have hsign : s * Sign.positive = s := by cases s <;> rfl
  simp only [UnpackedFloat.mul, hsign]
  rw [show e + -52 = e - ((52 : Nat) : Int) by omega]
  exact roundWithAccuracy_mul_pow hm he 52

end One

section Conversions

variable {k : Nat} (hk : 0 < k) (hk' : k < 2 ^ 53)

theorem ofScientific_unpack : (Float.ofScientific k true 0).toModel.unpack = natForm k hk hk' := by
  rw [Float.ofScientific, dif_pos ⟨hk', by decide⟩]
  change (Float.Model.pack (UnpackedFloat.div Format.binary64 k.toUInt64.toFloat.toModel.unpack
    (Float.exactlyRepresentablePowersOfTen[0]).toModel.unpack)).unpack = _
  have he := natForm_exponent hk hk'
  rw [toFloat_unpack hk hk', one_unpack, natForm, div_one (normal_log2 hk hk') (by omega)]
  exact unpack_pack_natForm hk hk'

theorem ofNat_unpack : (Float.ofNat k).toModel.unpack = natForm k hk hk' := by
  change (Float.ofScientific k false 0).toModel.unpack = _
  rw [Float.ofScientific, dif_pos ⟨hk', by decide⟩]
  change (Float.Model.pack (UnpackedFloat.mul Format.binary64 k.toUInt64.toFloat.toModel.unpack
    (Float.exactlyRepresentablePowersOfTen[0]).toModel.unpack)).unpack = _
  have he := natForm_exponent hk hk'
  rw [toFloat_unpack hk hk', one_unpack, natForm, mul_one (normal_log2 hk hk') (by omega)]
  exact unpack_pack_natForm hk hk'

end Conversions

theorem ofNat_toModel_large {p : Nat} (hp : 2 ^ 53 ≤ p) :
    (Float.ofNat p).toModel = Float.Model.pack
      (roundWithAccuracy Format.binary64 .positive (p * 2 ^ 53) (-53) .exact) := by
  have hp0 : p ≠ 0 := by omega
  change (Float.ofScientific p false 0).toModel = _
  rw [Float.ofScientific, dif_neg (by omega)]
  change Float.Model.pack (UnpackedFloat.ofScientific Format.binary64 p 0) = _
  simp only [UnpackedFloat.ofScientific, UnpackedFloat.mul, dif_neg hp0, Format.mantissaBits,
    Nat.shiftLeft_eq, Int.toNat_zero, Nat.pow_zero, Nat.mul_one, Int.add_zero]
  rw [if_neg (by decide), if_neg (by omega), if_pos (Int.le_refl 0)]
  rfl

theorem ofNat_unpack_large {p : Nat} (hp : 2 ^ 53 ≤ p) :
    (∃ s, (Float.ofNat p).toModel.unpack = .infinity s) ∨
      (∃ s, (Float.ofNat p).toModel.unpack = .zero s) ∨
      ∃ s m e h, (Float.ofNat p).toModel.unpack = .finite s m e h ∧ (1 ≤ e ∨ e = -1074) := by
  have hlog : 53 ≤ p.log2 := (Nat.le_log2 (by omega)).mpr hp
  have ht : 1 ≤ Format.binary64.targetExponent (totalExponent (p * 2 ^ 53) (-53)) := by
    simp only [Format.targetExponent, totalExponent, log2_mul_pow (by omega : p ≠ 0),
      Format.mantissaBits, Format.minExponent]
    omega
  rw [ofNat_toModel_large hp]
  rcases roundWithAccuracy_cases .positive (p * 2 ^ 53) (-53) .exact with hz | ⟨m, e, h, hf, he⟩
  · exact .inr (.inl ⟨.positive, by rw [hz]; rfl⟩)
  · rw [hf]
    rcases unpack_pack_exponent (s := .positive) (e := e) h (by omega) with
      hi | hz | ⟨s, m', e', h', hf', he'⟩
    · exact .inl hi
    · exact .inr (.inl hz)
    · exact .inr (.inr ⟨s, m', e', h', hf', by omega⟩)

section Compare

variable {m₁ : Nat} {e₁ : Int} {h₁ : 0 < m₁}

theorem beq_infinity (s : Sign) :
    (UnpackedFloat.finite .positive m₁ e₁ h₁).beq (.infinity s) = false := by
  cases s <;> rfl

theorem beq_zero (s : Sign) : (UnpackedFloat.finite .positive m₁ e₁ h₁).beq (.zero s) = false :=
  rfl

theorem beq_finite_of_ne {s : Sign} {m : Nat} {e : Int} {h : 0 < m} (he : e₁ ≠ e) :
    (UnpackedFloat.finite .positive m₁ e₁ h₁).beq (.finite s m e h) = false := by
  have hc : compare e₁ e ≠ .eq := fun hc => he (Int.compare_eq_eq.mp hc)
  cases s with
  | negative => rfl
  | positive =>
    simp only [UnpackedFloat.beq, UnpackedFloat.compare]
    simp [Ordering.then_eq_eq, hc]

theorem natForm_beq_natForm {n p : Nat} (hn : 0 < n) (hn' : n < 2 ^ 53) (hp : 0 < p)
    (hp' : p < 2 ^ 53) : (natForm n hn hn').beq (natForm p hp hp') = true ↔ p = n := by
  simp only [natForm, UnpackedFloat.beq, UnpackedFloat.compare, beq_iff_eq, Option.some.injEq,
    Ordering.then_eq_eq, Int.compare_eq_eq, Nat.compare_eq_eq]
  constructor
  · rintro ⟨he, hm⟩
    have hlog : n.log2 = p.log2 := by omega
    rw [hlog] at hm
    exact (Nat.eq_of_mul_eq_mul_right (Nat.two_pow_pos _) hm).symm
  · rintro rfl
    exact ⟨rfl, rfl⟩

end Compare

theorem ofScientific_beq_ofNat {n : Nat} (hn : 0 < n) (hn' : n < 2 ^ 53) (p : Nat) :
    (Float.ofScientific n true 0 == Float.ofNat p) = true ↔ p = n := by
  have hbeq : (Float.ofScientific n true 0 == Float.ofNat p) =
      (natForm n hn hn').beq (Float.ofNat p).toModel.unpack := by
    change Float.Model.beq _ _ = _
    rw [Float.Model.beq, ofScientific_unpack hn hn']
  rw [hbeq]
  rcases Nat.eq_zero_or_pos p with rfl | hp
  · -- zero converts to a positive zero
    simp only [show (Float.ofNat 0).toModel.unpack = .zero .positive from rfl, natForm, beq_zero]
    exact ⟨Bool.false_ne_true.elim, fun h => by omega⟩
  by_cases hp' : p < 2 ^ 53
  · rw [ofNat_unpack hp hp']
    exact natForm_beq_natForm hn hn' hp hp'
  -- a larger integer converts to a value that no integer below `2^53` equals
  have hne : p ≠ n := by omega
  have hexp := natForm_exponent hn hn'
  simp only [hne, iff_false, Bool.not_eq_true, natForm]
  rcases ofNat_unpack_large (by omega : 2 ^ 53 ≤ p) with ⟨s, hi⟩ | ⟨s, hz⟩ | ⟨s, m, e, h, hf, he⟩
  · rw [hi, beq_infinity]
  · rw [hz, beq_zero]
  · rw [hf, beq_finite_of_ne (by omega)]

end XmlPointer.Binary64
