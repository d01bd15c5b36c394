import Mathlib
import XmlPointer.Text.Utf8

/-! # Well-formed UTF-8

Bytes are well-formed when they read as characters to their end, one unit after another
(`WellFormed`): this is what `firstInvalid` finds to be so. A character is a leading byte and as
many continuation bytes as the leading byte announces, and it is read from those bytes only. So
well-formed bytes hold one character for each byte that is no continuation byte, and they split
into two well-formed parts before any such byte: no character runs across it. -/
namespace XmlPointer.Text.Utf8


theorem and_mask_eq_iff (b : UInt8) : b &&& 0xC0 = 0x80 ↔ isCont b = true := by
  have table : ∀ n < 256, (n &&& 192 = 128 ↔ 128 ≤ n ∧ n ≤ 191) := by decide +kernel
  rw [← UInt8.toNat_inj, UInt8.toNat_and]
  simp only [isCont, Bool.and_eq_true, decide_eq_true_eq, UInt8.le_iff_toNat_le]
  exact table b.toNat b.toNat_lt

theorem width_le (b : UInt8) : width b ≤ 4 := by
  unfold width
  split_ifs <;> omega

theorem width_of_isCont {b : UInt8} (h : isCont b = true) : width b = 0 := by
  simp only [isCont, Bool.and_eq_true, decide_eq_true_eq, UInt8.le_iff_toNat_le] at h
  simp only [width, Bool.and_eq_true, decide_eq_true_eq, UInt8.le_iff_toNat_le,
    UInt8.lt_iff_toNat_lt]
  split_ifs <;> simp_all <;> omega

theorem isCont_of_allowed {b b1 : UInt8}
    (h : (secondRange b).1 ≤ b1 ∧ b1 ≤ (secondRange b).2) :
    isCont b1 = true := by
  simp only [isCont, Bool.and_eq_true, decide_eq_true_eq]
  unfold secondRange at h
  simp only [UInt8.le_iff_toNat_le] at h ⊢
  split_ifs at h <;> simp at h ⊢ <;> omega

/-- What a well-formed character can be: one byte below `0x80`, or a leading byte of width two,
three or four followed by as many less one continuation bytes. -/
theorem readUnit_char_cases {b : UInt8} {rest : List UInt8} {c : Char} {e : Nat}
    (h : readUnit b rest = .char c e) :
    (e = 0 ∧ width b = 1) ∨
    (∃ b1 r, rest = b1 :: r ∧ e = 1 ∧ width b = 2 ∧ isCont b1 = true) ∨
    (∃ b1 b2 r, rest = b1 :: b2 :: r ∧ e = 2 ∧ width b = 3 ∧ isCont b1 = true ∧
      isCont b2 = true) ∨
    (∃ b1 b2 b3 r, rest = b1 :: b2 :: b3 :: r ∧ e = 3 ∧ width b = 4 ∧ isCont b1 = true ∧
      isCont b2 = true ∧ isCont b3 = true) := by
  unfold readUnit at h
  dsimp only at h
  split_ifs at h with h1 h2 h3 h4
  · cases h
    exact .inl ⟨rfl, h1⟩
  -- past the leading byte, each byte read is checked before the next
  all_goals
    rcases rest with _ | ⟨b1, r⟩
    · cases h
    simp only [Bool.not_and, Bool.or_eq_true, Bool.not_eq_eq_eq_not, Bool.not_true,
      decide_eq_false_iff_not] at h
    split_ifs at h with h5
    have hb1 := isCont_of_allowed (by simpa using h5)
  · cases h
    exact .inr (.inl ⟨b1, r, rfl, rfl, h3, hb1⟩)
  all_goals
    rcases r with _ | ⟨b2, r⟩
    · cases h
    dsimp only at h
    split_ifs at h with h6
  · cases h
    exact .inr (.inr (.inl ⟨b1, b2, r, rfl, rfl, h4, hb1, by simpa using h6⟩))
  · rcases r with _ | ⟨b3, r⟩
    · cases h
    dsimp only at h
    split_ifs at h with h7
    cases h
    have h4' : width b = 4 := by have := width_le b; omega
    exact .inr (.inr (.inr ⟨b1, b2, b3, r, rfl, rfl, h4', hb1, by simpa using h6,
      by simpa using h7⟩))

section Units

variable {b : UInt8} {rest : List UInt8} {c : Char} {e : Nat}

theorem readUnit_char_lead (h : readUnit b rest = .char c e) : isCont b = false := by
  cases hb : isCont b
  · rfl
  · have hw := width_of_isCont hb
    rcases readUnit_char_cases h with ⟨-, h1⟩ | ⟨_, _, -, -, h1, -⟩ |
      ⟨_, _, _, -, -, h1, -⟩ |
      ⟨_, _, _, _, -, -, h1, -⟩ <;> omega

theorem readUnit_char_conts (h : readUnit b rest = .char c e) :
    e ≤ rest.length ∧ ∀ x ∈ rest.take e, isCont x = true := by
  rcases readUnit_char_cases h with ⟨rfl, -⟩ | ⟨b1, r, rfl, rfl, -, h1⟩ |
    ⟨b1, b2, r, rfl, rfl, -, h1, h2⟩ | ⟨b1, b2, b3, r, rfl, rfl, -, h1, h2, h3⟩
  · simp
  · simp [h1]
  · simp [h1, h2]
  · simp [h1, h2, h3]

theorem readUnit_take_append (h : readUnit b rest = .char c e) (z : List UInt8) :
    readUnit b (rest.take e ++ z) = .char c e := by
  rw [← h]
  rcases readUnit_char_cases h with ⟨rfl, hw⟩ | ⟨b1, r, rfl, rfl, hw, -⟩ |
    ⟨b1, b2, r, rfl, rfl, hw, -⟩ | ⟨b1, b2, b3, r, rfl, rfl, hw, -⟩
  all_goals simp [readUnit, hw]

theorem readUnit_char_extra (h : readUnit b rest = .char c e) : e + 1 = width b := by
  rcases readUnit_char_cases h with ⟨rfl, hw⟩ | ⟨_, _, -, rfl, hw, -⟩ |
    ⟨_, _, _, -, rfl, hw, -⟩ |
    ⟨_, _, _, _, -, rfl, hw, -⟩ <;> omega

end Units

/-- Bytes that read as well-formed characters to their end. -/
inductive WellFormed : List UInt8 → Prop
  | nil : WellFormed []
  | cons {b : UInt8} {rest : List UInt8} {c : Char} {extra : Nat}
      (hunit : readUnit b rest = .char c extra) (htail : WellFormed (rest.drop extra)) :
      WellFormed (b :: rest)

theorem firstInvalidFrom_eq_none_iff {start : Nat} {bs : List UInt8} :
    firstInvalidFrom start bs = none ↔ WellFormed bs := by
  constructor
  · intro h
    fun_induction firstInvalidFrom start bs with
    | case1 => exact .nil
    | case2 start b rest c extra hunit ih => exact .cons hunit (ih h)
    | case3 start b rest extra hunit => simp at h
  · intro h
    induction h generalizing start with
    | nil => simp [firstInvalidFrom]
    | cons hunit htail ih => rw [firstInvalidFrom, hunit]; exact ih

theorem firstInvalid_eq_none_iff {bs : List UInt8} : firstInvalid bs = none ↔ WellFormed bs :=
  firstInvalidFrom_eq_none_iff

namespace WellFormed

variable {bs : List UInt8}

theorem head_lead (h : WellFormed bs) : ∀ a ∈ bs.head?, isCont a = false := by
  cases h with
  | nil => simp
  | cons hunit => simpa using readUnit_char_lead hunit

theorem drop_width {a : UInt8} (h : WellFormed (a :: bs)) : WellFormed (bs.drop (width a - 1)) := by
  cases h with
  | @cons _ _ c extra hunit htail =>
    have := readUnit_char_extra hunit
    rwa [show width a - 1 = extra by omega]

theorem mask_ne_iff (x : UInt8) : (x &&& 0xC0 != 0x80) = !isCont x := by
  rw [Bool.eq_iff_iff, bne_iff_ne, ne_eq, and_mask_eq_iff]
  simp

theorem length_decodeLossy (h : WellFormed bs) :
    (decodeLossy bs).length = (bs.filter fun x => x &&& 0xC0 != 0x80).length := by
  induction h with
  | nil => simp [decodeLossy]
  | @cons b rest c e hunit htail ih =>
    obtain ⟨hle, hconts⟩ := readUnit_char_conts hunit
    -- the bytes after the leading one are continuation bytes, which count for nothing
    have hskip : rest.filter (fun x => x &&& 0xC0 != 0x80) =
        (rest.drop e).filter (fun x => x &&& 0xC0 != 0x80) := by
      have hnone : (rest.take e).filter (fun x => x &&& 0xC0 != 0x80) = [] := by
        simpa [List.filter_eq_nil_iff, mask_ne_iff] using hconts
      conv_lhs => rw [← List.take_append_drop e rest]
      rw [List.filter_append, hnone, List.nil_append]
    have hlead : (b &&& 0xC0 != 0x80) = true := by rw [mask_ne_iff, readUnit_char_lead hunit]; rfl
    rw [decodeLossy, hunit]
    dsimp only
    rw [List.filter_cons, if_pos hlead, hskip, List.length_cons, List.length_cons, ih]

/-- Well-formed bytes split into two well-formed parts before any byte that is no continuation
byte: no character runs across it. -/
theorem split {x y : List UInt8} (h : WellFormed (x ++ y))
    (hy : ∀ a ∈ y.head?, isCont a = false) :
    WellFormed x ∧ WellFormed y := by
  generalize hxy : x ++ y = l at h
  induction h generalizing x with
  | nil =>
    obtain ⟨rfl, rfl⟩ := List.append_eq_nil_iff.mp hxy
    exact ⟨.nil, .nil⟩
  | @cons b rest c e hunit htail ih =>
    cases x with
    | nil =>
      rw [List.nil_append] at hxy
      subst hxy
      exact ⟨.nil, .cons hunit htail⟩
    | cons b x =>
      simp only [List.cons_append, List.cons.injEq] at hxy
      obtain ⟨rfl, rfl⟩ := hxy
      obtain ⟨hle, hconts⟩ := readUnit_char_conts hunit
      -- the character ends within `x`, for the first byte of `y` is no continuation byte
      have hex : e ≤ x.length := by
        by_contra hlt
        cases y with
        | nil => simp at hle; omega
        | cons a y =>
          have ha : a ∈ (x ++ a :: y).take e := by
            rw [List.take_append]
            apply List.mem_append_right
            rw [show e - x.length = (e - x.length - 1) + 1 by omega]
            simp
          simp [hconts a ha] at hy
      have hunit' : readUnit b x = .char c e := by
        have := readUnit_take_append hunit (x.drop e)
        rwa [List.take_append_of_le_length hex, List.take_append_drop] at this
      obtain ⟨hx, hy'⟩ := ih (List.drop_append_of_le_length hex).symm
      exact ⟨.cons hunit' hx, hy'⟩

end WellFormed

section Encodings

theorem ascii_mem_utf8EncodeChar {c : Char} {b : UInt8} (h : b ∈ String.utf8EncodeChar c)
    (hb : b.toNat < 0x80) : c.toNat = b.toNat := by
  simp only [String.utf8EncodeChar] at h
  -- every byte of a longer encoding has its high bit set
  split_ifs at h <;> simp only [List.mem_cons, List.not_mem_nil, or_false] at h <;>
    rcases h with rfl | rfl | rfl | rfl <;> simp only [UInt8.toNat_ofNat'] at hb ⊢ <;>
    simp only [Char.toNat] <;> omega

theorem toNat_ofNat_byte {n : Nat} (h : n < 256) : (UInt8.ofNat n).toNat = n :=
  UInt8.toNat_ofNat_of_lt' h

theorem width_eq (b : UInt8) : width b =
    if b.toNat < 0x80 then 1
    else if 0xC2 ≤ b.toNat ∧ b.toNat ≤ 0xDF then 2
    else if 0xE0 ≤ b.toNat ∧ b.toNat ≤ 0xEF then 3
    else if 0xF0 ≤ b.toNat ∧ b.toNat ≤ 0xF4 then 4
    else 0 := by
  simp [width, UInt8.lt_iff_toNat_lt, UInt8.le_iff_toNat_le]

theorem low_eq (b : UInt8) : low b = b.toNat % 64 := by
  rw [low, UInt8.toNat_and]
  exact Nat.and_two_pow_sub_one_eq_mod b.toNat 6

/-! The four forms a well-formed character takes, each read by `readUnit`. -/

theorem readUnit_one {b : UInt8} (h : b.toNat < 0x80) (rest : List UInt8) :
    readUnit b rest = .char (Char.ofNat b.toNat) 0 := by
  simp [readUnit, width_eq, h]

theorem readUnit_two {b0 b1 : UInt8} (h0 : 0xC2 ≤ b0.toNat ∧ b0.toNat ≤ 0xDF)
    (h1 : 0x80 ≤ b1.toNat ∧ b1.toNat ≤ 0xBF) (rest : List UInt8) :
    readUnit b0 (b1 :: rest) = .char (Char.ofNat (b0.toNat % 32 * 64 + b1.toNat % 64)) 1 := by
  have hw : width b0 = 2 := by rw [width_eq]; split_ifs <;> omega
  have hr : secondRange b0 = (0x80, 0xBF) := by
    simp only [secondRange, ← UInt8.toNat_inj]
    split_ifs <;> simp_all
  have hand : (b0 &&& 0x1F).toNat = b0.toNat % 32 := by
    rw [UInt8.toNat_and]
    exact Nat.and_two_pow_sub_one_eq_mod b0.toNat 5
  simp [readUnit, hw, hr, UInt8.le_iff_toNat_le, h1, hand, low_eq]

theorem readUnit_three {b0 b1 b2 : UInt8} (h0 : 0xE0 ≤ b0.toNat ∧ b0.toNat ≤ 0xEF)
    (h1 : 0x80 ≤ b1.toNat ∧ b1.toNat ≤ 0xBF) (he0 : b0.toNat = 0xE0 → 0xA0 ≤ b1.toNat)
    (hed : b0.toNat = 0xED → b1.toNat ≤ 0x9F) (h2 : 0x80 ≤ b2.toNat ∧ b2.toNat ≤ 0xBF)
    (rest : List UInt8) :
    readUnit b0 (b1 :: b2 :: rest) =
      .char (Char.ofNat (b0.toNat % 16 * 4096 + b1.toNat % 64 * 64 + b2.toNat % 64)) 2 := by
  have hw : width b0 = 3 := by rw [width_eq]; split_ifs <;> omega
  -- `0xE0` and `0xED` narrow the second byte, against overlong forms and surrogates
  have hr : (secondRange b0).1.toNat ≤ b1.toNat ∧ b1.toNat ≤ (secondRange b0).2.toNat := by
    simp only [secondRange, ← UInt8.toNat_inj]
    split_ifs <;> simp_all
  have hand : (b0 &&& 0x0F).toNat = b0.toNat % 16 := by
    rw [UInt8.toNat_and]
    exact Nat.and_two_pow_sub_one_eq_mod b0.toNat 4
  simp [readUnit, hw, UInt8.le_iff_toNat_le, hr, h2, isCont, hand, low_eq]

theorem readUnit_four {b0 b1 b2 b3 : UInt8} (h0 : 0xF0 ≤ b0.toNat ∧ b0.toNat ≤ 0xF4)
    (h1 : 0x80 ≤ b1.toNat ∧ b1.toNat ≤ 0xBF) (hf0 : b0.toNat = 0xF0 → 0x90 ≤ b1.toNat)
    (hf4 : b0.toNat = 0xF4 → b1.toNat ≤ 0x8F) (h2 : 0x80 ≤ b2.toNat ∧ b2.toNat ≤ 0xBF)
    (h3 : 0x80 ≤ b3.toNat ∧ b3.toNat ≤ 0xBF) (rest : List UInt8) :
    readUnit b0 (b1 :: b2 :: b3 :: rest) =
      .char (Char.ofNat (b0.toNat % 8 * 262144 + b1.toNat % 64 * 4096 + b2.toNat % 64 * 64 +
        b3.toNat % 64)) 3 := by
  have hw : width b0 = 4 := by rw [width_eq]; split_ifs <;> omega
  -- `0xF0` and `0xF4` narrow the second byte, against overlong forms and code points past
  -- U+10FFFF
  have hr : (secondRange b0).1.toNat ≤ b1.toNat ∧ b1.toNat ≤ (secondRange b0).2.toNat := by
    simp only [secondRange, ← UInt8.toNat_inj]
    split_ifs <;> simp_all
  have hand : (b0 &&& 0x07).toNat = b0.toNat % 8 := by
    rw [UInt8.toNat_and]
    exact Nat.and_two_pow_sub_one_eq_mod b0.toNat 3
  simp [readUnit, hw, UInt8.le_iff_toNat_le, hr, h2, h3, isCont, hand, low_eq]

/-- Each character's encoding reads back as that character. -/
theorem decodeLossy_utf8EncodeChar_append (c : Char) (rest : List UInt8) :
    decodeLossy (String.utf8EncodeChar c ++ rest) = c :: decodeLossy rest := by
  have hv : c.toNat < 0xD800 ∨ 0xDFFF < c.toNat ∧ c.toNat < 0x110000 := by
    simpa [UInt32.isValidChar, Nat.isValidChar] using c.valid
  conv_rhs => rw [← Char.ofNat_toNat c]
  unfold String.utf8EncodeChar
  dsimp only
  rw [show c.val.toNat = c.toNat from rfl]
  generalize c.toNat = v at hv
  -- one case for each length of an encoding; the bytes hold the code point's bits
  split_ifs with h1 h2 h3
  · rw [List.singleton_append, decodeLossy, readUnit_one (by rw [toNat_ofNat_byte] <;> omega),
      toNat_ofNat_byte (by omega)]
    rfl
  · rw [List.cons_append, List.cons_append, List.nil_append, decodeLossy,
      readUnit_two (by rw [toNat_ofNat_byte] <;> omega) (by rw [toNat_ofNat_byte] <;> omega),
      toNat_ofNat_byte (by omega), toNat_ofNat_byte (by omega),
      show (v / 64 % 32 + 192) % 32 * 64 + (v % 64 + 128) % 64 = v by omega]
    rfl
  · rw [List.cons_append, List.cons_append, List.cons_append, List.nil_append, decodeLossy,
      readUnit_three (by rw [toNat_ofNat_byte] <;> omega) (by rw [toNat_ofNat_byte] <;> omega)
        (by rw [toNat_ofNat_byte, toNat_ofNat_byte] <;> omega)
        (by rw [toNat_ofNat_byte, toNat_ofNat_byte] <;> omega)
        (by rw [toNat_ofNat_byte] <;> omega),
      toNat_ofNat_byte (by omega), toNat_ofNat_byte (by omega), toNat_ofNat_byte (by omega),
      show (v / 4096 % 16 + 224) % 16 * 4096 + (v / 64 % 64 + 128) % 64 * 64 +
        (v % 64 + 128) % 64 = v by omega]
    rfl
  · rw [List.cons_append, List.cons_append, List.cons_append, List.cons_append, List.nil_append,
      decodeLossy,
      readUnit_four (by rw [toNat_ofNat_byte] <;> omega) (by rw [toNat_ofNat_byte] <;> omega)
        (by rw [toNat_ofNat_byte, toNat_ofNat_byte] <;> omega)
        (by rw [toNat_ofNat_byte, toNat_ofNat_byte] <;> omega)
        (by rw [toNat_ofNat_byte] <;> omega) (by rw [toNat_ofNat_byte] <;> omega),
      toNat_ofNat_byte (by omega), toNat_ofNat_byte (by omega), toNat_ofNat_byte (by omega),
      toNat_ofNat_byte (by omega),
      show (v / 262144 % 8 + 240) % 8 * 262144 + (v / 4096 % 64 + 128) % 64 * 4096 +
        (v / 64 % 64 + 128) % 64 * 64 + (v % 64 + 128) % 64 = v by omega]
    rfl

theorem decodeLossy_encode (s : String) : decodeLossy (encode s) = s.toList := by
  rw [encode]
  induction s.toList with
  | nil => rw [List.flatMap_nil, decodeLossy]
  | cons c cs ih => rw [List.flatMap_cons, decodeLossy_utf8EncodeChar_append, ih]

end Encodings

end XmlPointer.Text.Utf8
