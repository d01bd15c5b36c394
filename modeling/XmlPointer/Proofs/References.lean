import Mathlib
import XmlPointer.Text.Entity

/-! # Decoding references

Decoding rewrites bytes from left to right: where a reference starts, it is replaced by the
UTF-8 bytes of the character it names, and every other byte is copied (`Rewrites`). A reference
is `&`, a body and `;`, the body being one of the five predefined names, or `#` (`#x`, `#X`)
and a decimal (hexadecimal) numeral whose value is an XML character. No body holds a `;`, so
the nearest `;` after an `&` is the one a reference would end with.

The numerals of the decoder are those of unsigned 32-bit integers, which may carry a `+` before
their digits: `decodeBytes_eq_iff_rewrites` holds of the grammar with signed numerals, and
`&#+65;`, no reference of XML, decodes to `A`. -/
namespace XmlPointer.Text

/-- Digits of a radix, most significant first, that denote `n`. -/
def Denotes (radix : Nat) (ds : List UInt8) (n : Nat) : Prop :=
  ds ≠ [] ∧ ∃ vs : List Nat, ds.map (digitValue radix) = vs.map some ∧
    n = Nat.ofDigits radix vs.reverse

def Numeral (signed : Bool) (radix : Nat) (bs : List UInt8) (n : Nat) : Prop :=
  Denotes radix bs n ∨ (signed = true ∧ ∃ ds, bs = 0x2B :: ds ∧ Denotes radix ds n)

/-- The body of a reference (the bytes between `&` and `;`) and the character it names. -/
inductive Reference (signed : Bool) : List UInt8 → Char → Prop
  /-- `lt` -/
  | lt : Reference signed [0x6C, 0x74] '<'
  /-- `gt` -/
  | gt : Reference signed [0x67, 0x74] '>'
  /-- `amp` -/
  | amp : Reference signed [0x61, 0x6D, 0x70] '&'
  /-- `quot` -/
  | quot : Reference signed [0x71, 0x75, 0x6F, 0x74] '"'
  /-- `apos` -/
  | apos : Reference signed [0x61, 0x70, 0x6F, 0x73] (Char.ofNat 0x27)
  /-- `#` and a decimal numeral -/
  | decimal {ds : List UInt8} {n : Nat} : Numeral signed 10 ds n → isXmlChar n = true →
      Reference signed (0x23 :: ds) (Char.ofNat n)
  /-- `#x` or `#X` and a hexadecimal numeral -/
  | hex {x : UInt8} {ds : List UInt8} {n : Nat} : (x = 0x78 ∨ x = 0x58) →
      Numeral signed 16 ds n → isXmlChar n = true → Reference signed (0x23 :: x :: ds) (Char.ofNat n)

def StartsReference (signed : Bool) (bs : List UInt8) : Prop :=
  ∃ body c rest, Reference signed body c ∧ bs = 0x26 :: (body ++ 0x3B :: rest)

/-- `out` is `bs` rewritten from left to right: a reference that starts here is replaced by the
UTF-8 bytes of its character, and any other byte is copied. -/
inductive Rewrites (signed : Bool) : List UInt8 → List UInt8 → Prop
  | nil : Rewrites signed [] []
  | reference {body : List UInt8} {c : Char} {rest out : List UInt8} :
      Reference signed body c → Rewrites signed rest out →
      Rewrites signed (0x26 :: (body ++ 0x3B :: rest)) (String.utf8EncodeChar c ++ out)
  | copy {b : UInt8} {rest out : List UInt8} : ¬ StartsReference signed (b :: rest) →
      Rewrites signed rest out → Rewrites signed (b :: rest) (b :: out)

section Numerals

theorem digitsValue_eq_some_iff {radix : Nat} {ds : List UInt8} {acc n : Nat} :
    digitsValue radix ds acc = some n ↔
      ∃ vs : List Nat, ds.map (digitValue radix) = vs.map some ∧
        n = acc * radix ^ ds.length + Nat.ofDigits radix vs.reverse := by
  induction ds generalizing acc with
  | nil =>
    constructor
    · rintro ⟨⟩
      exact ⟨[], rfl, by simp⟩
    · rintro ⟨vs, hvs, rfl⟩
      obtain rfl : vs = [] := by simpa using hvs.symm
      simp [digitsValue]
  | cons b bs ih =>
    simp only [digitsValue, Option.bind_eq_some_iff, ih, List.map_cons, List.length_cons]
    constructor
    · rintro ⟨d, hd, vs, hvs, rfl⟩
      refine ⟨d :: vs, by simp [hd, hvs], ?_⟩
      simp only [List.reverse_cons, Nat.ofDigits_append, List.length_reverse,
        Nat.ofDigits_singleton]
      have hlen : vs.length = bs.length := by simpa using congrArg List.length hvs.symm
      rw [hlen, pow_succ]
      ring
    · rintro ⟨_ | ⟨d, vs⟩, hvs, rfl⟩
      · simp at hvs
      · simp only [List.map_cons, List.cons.injEq] at hvs
        refine ⟨d, hvs.1, vs, hvs.2, ?_⟩
        simp only [List.reverse_cons, Nat.ofDigits_append, List.length_reverse,
          Nat.ofDigits_singleton]
        have hlen : vs.length = bs.length := by simpa using congrArg List.length hvs.2.symm
        rw [hlen, pow_succ]
        ring

theorem digitsValue_eq_some_iff_denotes {radix : Nat} {ds : List UInt8} {n : Nat} (h : ds ≠ []) :
    digitsValue radix ds 0 = some n ↔ Denotes radix ds n := by
  simp [Denotes, digitsValue_eq_some_iff, h]

@[simp] theorem digitValue_plus (radix : Nat) : digitValue radix 0x2B = none := rfl

@[simp] theorem digitValue_semicolon (radix : Nat) : digitValue radix 0x3B = none := rfl

theorem Numeral.digit_of_mem {signed : Bool} {radix n : Nat} {bs : List UInt8} {b : UInt8}
    (h : Numeral signed radix bs n) (hb : b ∈ bs) : b = 0x2B ∨ (digitValue radix b).isSome := by
  have digits :
      ∀ {ds : List UInt8}, Denotes radix ds n → b ∈ ds → (digitValue radix b).isSome := by
    rintro ds ⟨-, vs, hvs, -⟩ hb
    have : digitValue radix b ∈ vs.map some := hvs ▸ List.mem_map_of_mem hb
    obtain ⟨v, -, hv⟩ := List.mem_map.mp this
    simp [← hv]
  rcases h with h | ⟨-, ds, rfl, h⟩
  · exact .inr (digits h hb)
  · rcases List.mem_cons.mp hb with rfl | hb
    · exact .inl rfl
    · exact .inr (digits h hb)

theorem readUnsigned_eq_some_iff {radix n : Nat} {bs : List UInt8} :
    readUnsigned radix bs = some n ↔ Numeral true radix bs n ∧ n < 2 ^ 32 := by
  -- a numeral that starts with `+` has its digits after it
  have unsigned : ∀ {b : UInt8} {ds : List UInt8}, b ≠ 0x2B →
      (Numeral true radix (b :: ds) n ↔ Denotes radix (b :: ds) n) := by
    intro b ds hb
    simp [Numeral, hb]
  have plusDigit : ∀ {ds : List UInt8}, ¬ Denotes radix (0x2B :: ds) n := by
    rintro ds ⟨-, vs, hvs, -⟩
    cases vs <;> simp at hvs
  rcases bs with _ | ⟨b, ds⟩
  · simp [readUnsigned, Numeral, Denotes]
  · by_cases hb : b = 0x2B
    · subst hb
      rcases ds with _ | ⟨d, ds⟩
      · have hr : readUnsigned radix [0x2B] = none := rfl
        simp only [hr, reduceCtorEq, false_iff, not_and]
        rintro (h | ⟨-, ds, hds, h⟩)
        · exact absurd h plusDigit
        · cases hds
          exact absurd rfl h.1
      · simp [readUnsigned, Numeral, plusDigit, digitsValue_eq_some_iff_denotes]
    · rw [unsigned hb]
      have hd : readUnsigned radix (b :: ds) =
          (digitsValue radix (b :: ds) 0).filter (· < Nat.pow 2 32) := by
        simp [readUnsigned, hb]
      simp [hd, digitsValue_eq_some_iff_denotes, and_comm]

theorem Numeral.not_plus {radix n : Nat} {ds : List UInt8} :
    ¬ Numeral false radix (0x2B :: ds) n := by
  rintro (⟨-, vs, hvs, -⟩ | ⟨h, -⟩)
  · cases vs <;> simp at hvs
  · cases h

theorem lt_of_isXmlChar {n : Nat} (h : isXmlChar n = true) : n < 2 ^ 32 := by
  simp only [isXmlChar, inRange, Bool.or_eq_true, Bool.and_eq_true, decide_eq_true_eq] at h
  omega

end Numerals

section References

variable {signed : Bool}

theorem Reference.semicolon_not_mem {body : List UInt8} {c : Char} (h : Reference signed body c) :
    0x3B ∉ body := by
  have numeral :
      ∀ {radix n : Nat} {ds : List UInt8}, Numeral signed radix ds n → 0x3B ∉ ds := by
    intro radix n ds hn hm
    rcases hn.digit_of_mem hm with h | h <;> simp at h
  cases h with
  | decimal hn _ => simpa using numeral hn
  | hex hx hn _ => rcases hx with rfl | rfl <;> simpa using numeral hn
  | _ => decide

theorem Reference.not_plus {ds : List UInt8} {c : Char} :
    ¬ Reference false (0x23 :: 0x2B :: ds) c := by
  intro h
  generalize hb : 0x23 :: 0x2B :: ds = body at h
  cases h with
  | decimal hn _ =>
    cases hb
    exact Numeral.not_plus hn
  | hex hx _ _ =>
    cases hb
    rcases hx with h | h <;> cases h
  | _ => simp at hb

theorem splitReference_cons (b : UInt8) (bs : List UInt8) :
    splitReference (b :: bs) =
      if b = 0x3B then some ([], bs) else (splitReference bs).map fun p => (b :: p.1, p.2) := by
  by_cases hb : b = 0x3B
  · simp [splitReference, hb]
  · have hp : (b != 0x3B) = true := by simpa using hb
    simp only [splitReference, List.takeWhile_cons, hp, if_true, hb, if_false, List.length_cons,
      Nat.add_lt_add_iff_right]
    split <;> simp

theorem splitReference_append {body rest : List UInt8} (h : 0x3B ∉ body) :
    splitReference (body ++ 0x3B :: rest) = some (body, rest) := by
  induction body with
  | nil => simp [splitReference_cons]
  | cons b body ih =>
    simp only [List.mem_cons, not_or] at h
    simp [splitReference_cons, Ne.symm h.1, ih h.2]

theorem splitReference_eq_some {bs body after : List UInt8}
    (h : splitReference bs = some (body, after)) :
    bs = body ++ 0x3B :: after ∧ 0x3B ∉ body := by
  induction bs generalizing body with
  | nil => simp [splitReference] at h
  | cons b bs ih =>
    rw [splitReference_cons] at h
    split at h
    · cases h
      simp_all
    · rename_i hb
      obtain ⟨⟨body', after'⟩, h', he⟩ := Option.map_eq_some_iff.mp h
      cases he
      obtain ⟨rfl, hm⟩ := ih h'
      refine ⟨rfl, ?_⟩
      simp only [List.mem_cons, not_or]
      exact ⟨fun e => hb e.symm, hm⟩

theorem entityChar_hex {x : UInt8} {ds : List UInt8} (hx : x = 0x78 ∨ x = 0x58) :
    entityChar (0x23 :: x :: ds) = ((readUnsigned 16 ds).filter isXmlChar).map Char.ofNat := by
  rcases hx with rfl | rfl <;> simp [entityChar]

theorem entityChar_decimal {ds : List UInt8}
    (h : ∀ x rest, ds = x :: rest → x ≠ 0x78 ∧ x ≠ 0x58) :
    entityChar (0x23 :: ds) = ((readUnsigned 10 ds).filter isXmlChar).map Char.ofNat := by
  rcases ds with _ | ⟨x, rest⟩
  · simp [entityChar, readUnsigned]
  · obtain ⟨h1, h2⟩ := h x rest rfl
    simp [entityChar, h1, h2]

theorem numeric_eq_some_iff {radix : Nat} {ds : List UInt8} {c : Char} :
    ((readUnsigned radix ds).filter isXmlChar).map Char.ofNat = some c ↔
      ∃ n, Numeral true radix ds n ∧ isXmlChar n = true ∧ c = Char.ofNat n := by
  simp only [Option.map_eq_some_iff, Option.filter_eq_some_iff, readUnsigned_eq_some_iff]
  constructor
  · rintro ⟨n, ⟨⟨hn, -⟩, hc⟩, rfl⟩
    exact ⟨n, hn, hc, rfl⟩
  · rintro ⟨n, hn, hc, rfl⟩
    exact ⟨n, ⟨⟨hn, lt_of_isXmlChar hc⟩, hc⟩, rfl⟩

theorem reference_of_entityChar_numeric {ds : List UInt8} {c : Char}
    (h : entityChar (0x23 :: ds) = some c) : Reference true (0x23 :: ds) c := by
  by_cases hx : ∃ x rest, ds = x :: rest ∧ (x = 0x78 ∨ x = 0x58)
  · obtain ⟨x, rest, rfl, hx⟩ := hx
    obtain ⟨n, hn, hc, rfl⟩ := numeric_eq_some_iff.mp ((entityChar_hex hx).symm.trans h)
    exact .hex hx hn hc
  · have hd : ∀ x rest, ds = x :: rest → x ≠ 0x78 ∧ x ≠ 0x58 := by
      rintro x rest rfl
      exact ⟨fun e => hx ⟨x, rest, rfl, .inl e⟩, fun e => hx ⟨x, rest, rfl, .inr e⟩⟩
    obtain ⟨n, hn, hc, rfl⟩ := numeric_eq_some_iff.mp ((entityChar_decimal hd).symm.trans h)
    exact .decimal hn hc

theorem reference_of_entityChar_named {b : UInt8} {ds : List UInt8} {c : Char} (hb : b ≠ 0x23)
    (h : entityChar (b :: ds) = some c) : Reference true (b :: ds) c := by
  simp only [entityChar] at h
  generalize hf : List.find? _ _ = found at h
  rcases found with _ | ⟨name, c'⟩
  · simp only at h
    split at h <;> simp_all
  · cases h
    have hmem := List.mem_of_find?_eq_some hf
    have heq := List.find?_some hf
    simp only [beq_iff_eq] at heq
    subst heq
    simp only [List.mem_cons, Prod.mk.injEq, List.not_mem_nil, or_false] at hmem
    rcases hmem with ⟨h, rfl⟩ | ⟨h, rfl⟩ | ⟨h, rfl⟩ | ⟨h, rfl⟩ | ⟨h, rfl⟩ <;>
      rw [h]
    · exact .lt
    · exact .gt
    · exact .amp
    · exact .quot
    · exact .apos

theorem entityChar_eq_some_iff {body : List UInt8} {c : Char} :
    entityChar body = some c ↔ Reference true body c := by
  constructor
  · intro h
    rcases body with _ | ⟨b, ds⟩
    · simp [entityChar] at h
    by_cases hb : b = 0x23
    · subst hb
      exact reference_of_entityChar_numeric h
    · exact reference_of_entityChar_named hb h
  · intro h
    cases h with
    | @decimal ds n hn hc =>
      have hd : ∀ x rest, ds = x :: rest → x ≠ 0x78 ∧ x ≠ 0x58 := by
        rintro x rest rfl
        rcases hn.digit_of_mem List.mem_cons_self with h | h <;>
          constructor <;> rintro rfl <;> revert h <;> decide
      rw [entityChar_decimal hd, numeric_eq_some_iff]
      exact ⟨_, hn, hc, rfl⟩
    | hex hx hn hc =>
      rw [entityChar_hex hx, numeric_eq_some_iff]
      exact ⟨_, hn, hc, rfl⟩
    | _ => rfl

end References

section Decoding

theorem decodeBytes_reference {body rest : List UInt8} {c : Char} (h : Reference true body c) :
    decodeBytes (0x26 :: (body ++ 0x3B :: rest)) = String.utf8EncodeChar c ++ decodeBytes rest := by
  rw [decodeBytes, if_pos rfl]
  split
  · rename_i hs
    rw [splitReference_append h.semicolon_not_mem] at hs
    cases hs
    rw [entityChar_eq_some_iff.mpr h]
  · rename_i hs
    rw [splitReference_append h.semicolon_not_mem] at hs
    cases hs

theorem decodeBytes_copy {b : UInt8} {rest : List UInt8} (h : ¬ StartsReference true (b :: rest)) :
    decodeBytes (b :: rest) = b :: decodeBytes rest := by
  rw [decodeBytes]
  split
  · rename_i hb
    split
    · rename_i body after hs
      obtain ⟨rfl, -⟩ := splitReference_eq_some hs
      split
      · rename_i c hc
        exact absurd ⟨body, c, after, entityChar_eq_some_iff.mp hc, by rw [hb]⟩ h
      · rfl
    · rfl
  · rfl

theorem rewrites_decodeBytes (bs : List UInt8) : Rewrites true bs (decodeBytes bs) := by
  -- on the length, since a reference is passed over whole
  induction hlen : bs.length using Nat.strong_induction_on generalizing bs with
  | _ len ih =>
    subst hlen
    by_cases hs : StartsReference true bs
    · obtain ⟨body, c, rest, hr, rfl⟩ := hs
      rw [decodeBytes_reference hr]
      exact .reference hr (ih _ (by simp; omega) rest rfl)
    · rcases bs with _ | ⟨b, rest⟩
      · rw [decodeBytes]
        exact .nil
      · rw [decodeBytes_copy hs]
        exact .copy hs (ih _ (by simp) rest rfl)

/-- Decoding rewrites the bytes from left to right, a reference being replaced by its
character and every other byte copied, where a numeric reference may carry a `+` before its
digits. -/
theorem decodeBytes_eq_iff_rewrites {bs out : List UInt8} :
    decodeBytes bs = out ↔ Rewrites true bs out := by
  constructor
  · rintro rfl
    exact rewrites_decodeBytes bs
  · intro h
    induction h with
    | nil => rw [decodeBytes]
    | reference hr _ ih => rw [decodeBytes_reference hr, ih]
    | copy hs _ ih => rw [decodeBytes_copy hs, ih]

theorem Rewrites.startsReference_of_ne {signed : Bool} {b b' : UInt8} {rest out : List UInt8}
    (h : Rewrites signed (b :: rest) (b' :: out)) (hb : b ≠ b') :
    StartsReference signed (b :: rest) := by
  generalize ho : b' :: out = o at h
  cases h with
  | reference hr _ => exact ⟨_, _, _, hr, rfl⟩
  | copy _ _ =>
    cases ho
    exact absurd rfl hb

/-- `&#+65;` decodes to `A`, though its numeral has a sign that XML does not allow: decoding is
no rewriting by the XML grammar. -/
theorem decodeBytes_signed_reference_not_xml :
    ¬ Rewrites false [0x26, 0x23, 0x2B, 0x36, 0x35, 0x3B]
      (decodeBytes [0x26, 0x23, 0x2B, 0x36, 0x35, 0x3B]) := by
  have hA : Reference true [0x23, 0x2B, 0x36, 0x35] (Char.ofNat 65) :=
    .decimal (.inr ⟨rfl, [0x36, 0x35], rfl, by simp, [6, 5], rfl, rfl⟩) rfl
  have hd : decodeBytes [0x26, 0x23, 0x2B, 0x36, 0x35, 0x3B] = [0x41] := by
    have hnil : decodeBytes [] = [] := by rw [decodeBytes]
    have hsplit : ([0x26, 0x23, 0x2B, 0x36, 0x35, 0x3B] : List UInt8) =
        0x26 :: ([0x23, 0x2B, 0x36, 0x35] ++ [0x3B]) := rfl
    rw [hsplit, decodeBytes_reference hA, hnil]
    rfl
  rw [hd]
  intro h
  obtain ⟨body, c, rest, hr, heq⟩ := h.startsReference_of_ne (by decide)
  -- the body would run to the nearest `;`, and so hold the sign
  have hs : splitReference (body ++ 0x3B :: rest) = some (body, rest) :=
    splitReference_append hr.semicolon_not_mem
  simp only [List.cons.injEq, true_and] at heq
  rw [← heq] at hs
  cases hs
  exact Reference.not_plus hr

end Decoding

end XmlPointer.Text
