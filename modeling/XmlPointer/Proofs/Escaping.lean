import Mathlib
import XmlPointer.Markup.Attribute
import XmlPointer.Proofs.References
import XmlPointer.Proofs.Utf8Units

/-! # Escaped text reads back

Both escapers write a character either as itself, when it is no `&`, or as a reference that
names it (`Escapes`), so decoding gives back the bytes of the text (`decodeBytes_escape`). An
attribute value escaped for double quotes holds no quote, no `<` and no tab, line feed or
carriage return, so it is read back whole and its normalization changes nothing. -/
namespace XmlPointer.Text

theorem decodeBytes_append_plain {bs : List UInt8} (rest : List UInt8) (h : 0x26 ∉ bs) :
    decodeBytes (bs ++ rest) = bs ++ decodeBytes rest := by
  induction bs with
  | nil => rfl
  | cons b bs ih =>
    simp only [List.mem_cons, not_or] at h
    have hs : ¬ StartsReference true (b :: (bs ++ rest)) := by
      rintro ⟨_, _, _, -, he⟩
      exact h.1 (List.cons.inj he).1.symm
    rw [List.cons_append, decodeBytes_copy hs, ih h.2, List.cons_append]

/-- An escaper writes each character as itself when it is no `&`, or else as a reference that
names it. -/
def Escapes (escape : Char → List Char) : Prop :=
  ∀ c, (escape c = [c] ∧ c ≠ '&') ∨
    ∃ body, Reference true body c ∧ (escape c).flatMap String.utf8EncodeChar = 0x26 :: (body ++ [0x3B])

theorem decodeBytes_escape {escape : Char → List Char} (he : Escapes escape) (cs : List Char)
    (rest : List UInt8) :
    decodeBytes ((cs.flatMap escape).flatMap String.utf8EncodeChar ++ rest) =
      cs.flatMap String.utf8EncodeChar ++ decodeBytes rest := by
  induction cs with
  | nil => rfl
  | cons c cs ih =>
    rw [List.flatMap_cons, List.flatMap_cons, List.append_assoc]
    rcases he c with ⟨hc, hamp⟩ | ⟨body, hr, hc⟩
    · -- the character's own bytes hold an `&` only if it is one
      have hplain : 0x26 ∉ String.utf8EncodeChar c := by
        intro hm
        have hc38 : c.toNat = 0x26 := Utf8.ascii_mem_utf8EncodeChar hm (by decide)
        exact hamp (by rw [← Char.ofNat_toNat c, hc38])
      rw [hc, List.singleton_append, List.flatMap_cons, List.append_assoc,
        decodeBytes_append_plain _ hplain, ih]
    · rw [List.flatMap_append, hc, List.append_assoc, List.cons_append, List.append_assoc,
        List.singleton_append, decodeBytes_reference hr, ih]

theorem escapes_text : Escapes escapeTextChar := by
  intro c
  unfold escapeTextChar
  split_ifs with h1 h2 h3
  · subst h1
    exact .inr ⟨[0x6C, 0x74], .lt, by decide⟩
  · subst h2
    exact .inr ⟨[0x67, 0x74], .gt, by decide⟩
  · subst h3
    exact .inr ⟨[0x61, 0x6D, 0x70], .amp, by decide⟩
  · exact .inl ⟨rfl, h3⟩

theorem reference_decimal (c : Char) (ds : List UInt8) (vs : List Nat)
    (hds : ds.map (digitValue 10) = vs.map some) (hne : ds ≠ [])
    (hv : c.toNat = Nat.ofDigits 10 vs.reverse) (hx : isXmlChar c.toNat = true) :
    Reference true (0x23 :: ds) c := by
  have h : Reference true (0x23 :: ds) (Char.ofNat c.toNat) :=
    .decimal (.inl ⟨hne, vs, hds, hv⟩) hx
  rwa [Char.ofNat_toNat] at h

theorem escapes_attribute : Escapes escapeAttributeChar := by
  intro c
  unfold escapeAttributeChar
  split_ifs with h1 h2 h3 h4 h5 h6
  · subst h1
    exact .inr ⟨[0x6C, 0x74], .lt, by decide⟩
  · subst h2
    exact .inr ⟨[0x61, 0x6D, 0x70], .amp, by decide⟩
  · subst h3
    exact .inr ⟨[0x71, 0x75, 0x6F, 0x74], .quot, by decide⟩
  · subst h4
    exact .inr ⟨_, reference_decimal _ [0x39] [9] rfl (by simp) rfl rfl, by decide⟩
  · subst h5
    exact .inr ⟨_, reference_decimal _ [0x31, 0x30] [1, 0] rfl (by simp) rfl rfl, by decide⟩
  · subst h6
    exact .inr ⟨_, reference_decimal _ [0x31, 0x33] [1, 3] rfl (by simp) rfl rfl, by decide⟩
  · exact .inl ⟨rfl, h2⟩

theorem decodeBytes_escapeText (s : String) :
    decodeBytes (Utf8.encode (escapeText s)) = Utf8.encode s := by
  simpa [Utf8.encode, escapeText, decodeBytes] using decodeBytes_escape escapes_text s.toList []

theorem decodeBytes_escapeAttribute (v : String) :
    decodeBytes (Utf8.encode (escapeAttribute v)) = Utf8.encode v := by
  simpa [Utf8.encode, escapeAttribute, decodeBytes] using
    decodeBytes_escape escapes_attribute v.toList []

theorem safe_of_mem_escapeAttributeChar {c e : Char} (he : e ∈ escapeAttributeChar c) :
    e ≠ '"' ∧ e ≠ '<' ∧ e ≠ '\t' ∧ e ≠ '\n' ∧ e ≠ '\r' := by
  unfold escapeAttributeChar at he
  split_ifs at he with h1 h2 h3 h4 h5 h6 <;> simp at he
  · rcases he with rfl | rfl | rfl | rfl <;> decide
  · rcases he with rfl | rfl | rfl | rfl | rfl <;> decide
  · rcases he with rfl | rfl | rfl | rfl | rfl | rfl <;> decide
  · rcases he with rfl | rfl | rfl | rfl <;> decide
  · rcases he with rfl | rfl | rfl | rfl | rfl <;> decide
  · rcases he with rfl | rfl | rfl | rfl | rfl <;> decide
  · subst he
    exact ⟨h3, h1, h4, h5, h6⟩

theorem mem_escapeAttribute {v : String} {b : UInt8} (hb : b ∈ Utf8.encode (escapeAttribute v)) :
    b ≠ 0x22 ∧ b ≠ 0x3C ∧ b ≠ 0x09 ∧ b ≠ 0x0A ∧ b ≠ 0x0D := by
  simp only [Utf8.encode, escapeAttribute, String.toList_ofList, List.mem_flatMap] at hb
  obtain ⟨e, ⟨c, -, he⟩, hbe⟩ := hb
  have hsafe := safe_of_mem_escapeAttributeChar he
  by_cases hlow : b.toNat < 0x80
  · -- an ASCII byte is the character itself
    have hv := Utf8.ascii_mem_utf8EncodeChar hbe hlow
    have he : e = Char.ofNat b.toNat := by rw [← hv, Char.ofNat_toNat]
    subst he
    refine ⟨?_, ?_, ?_, ?_, ?_⟩ <;> rintro rfl <;> simp_all
  · refine ⟨?_, ?_, ?_, ?_, ?_⟩ <;> rintro rfl <;> exact hlow (by decide)

end XmlPointer.Text

namespace XmlPointer.Markup

/-- A name that the attribute parser reads whole: not empty, with no blank and no `=`, and not
starting with a quote or `<`. -/
def ReadsAsName (a : List UInt8) : Prop :=
  (∀ b ∈ a, Text.isXmlBlankByte b = false ∧ b ≠ 0x3D) ∧
    ∃ b rest, a = b :: rest ∧ isQuote b = false ∧ b ≠ 0x3C

theorem takeWhile_append_stop {p : UInt8 → Bool} {a t : List UInt8} {x : UInt8}
    (ha : ∀ b ∈ a, p b = true) (hx : p x = false) : (a ++ x :: t).takeWhile p = a := by
  rw [List.takeWhile_append_of_pos ha, List.takeWhile_cons_of_neg (by simp [hx]), List.append_nil]

/-- A region of one attribute with a double-quoted value, holding neither the quote nor `<`, is
read as that attribute. -/
theorem parseAttributes_one {a raw : List UInt8} (ha : ReadsAsName a) (hq : 0x22 ∉ raw)
    (hlt : 0x3C ∉ raw) (offset : Nat) (strict : Bool) :
    parseAttributes (0x20 :: (a ++ 0x3D :: 0x22 :: (raw ++ [0x22]))) offset strict =
      .ok [⟨a, normalizeValue raw⟩] := by
  obtain ⟨hbytes, b, rest, rfl, hb, hb'⟩ := ha
  have hnb : ∀ x t, Text.isXmlBlankByte x = false → blankLength (x :: t) = 0 := by
    intro x t hx
    simp [blankLength, hx]
  -- the name: the bytes up to the `=`
  have hblank : blankLength (0x20 :: b :: (rest ++ 0x3D :: 0x22 :: (raw ++ [0x22]))) = 1 := by
    simp [blankLength, (hbytes b (by simp)).1, show Text.isXmlBlankByte 0x20 = true from rfl]
  have hname : (b :: (rest ++ 0x3D :: 0x22 :: (raw ++ [0x22]))).takeWhile
      (fun b => !Text.isXmlBlankByte b && b != 0x3D) = b :: rest := by
    rw [← List.cons_append]
    exact takeWhile_append_stop (fun c hc => by simp [(hbytes c hc).1, (hbytes c hc).2]) (by decide)
  have hafter : (b :: (rest ++ 0x3D :: 0x22 :: (raw ++ [0x22]))).drop (b :: rest).length =
      0x3D :: 0x22 :: (raw ++ [0x22]) := by
    rw [← List.cons_append, List.drop_left]
  simp only [parseAttributes, List.cons_append]
  rw [readAttributes]
  simp only [hblank, List.drop_one, List.tail_cons, hname, List.isEmpty_cons, hb, hb',
    Bool.false_or, decide_false, Bool.false_eq_true, if_false, hafter, hnb 0x3D _ rfl,
    hnb 0x22 _ rfl, List.drop_zero]
  -- the value: the bytes up to the closing quote
  have hvalue : (raw ++ [0x22]).takeWhile (· != 0x22) = raw :=
    takeWhile_append_stop (fun c hc => by simp; rintro rfl; exact hq hc) (by decide)
  have hlen : raw.length ≠ (raw ++ [0x22]).length := by simp
  have hcontains : raw.contains 0x3C = false := by simpa using hlt
  have hend : (raw ++ [0x22]).drop (raw.length + 1) = [] := by simp
  simp only [readValue, show isQuote 0x22 = true from rfl, if_true, hvalue, hlen, if_false,
    List.take_left, hcontains, Bool.false_eq_true, List.any_nil, Bool.and_false]
  rw [hend, List.length_cons, readAttributes]
  simp [blankLength]

theorem normalizeValue_of_no_blank {raw : List UInt8}
    (h : ∀ b ∈ raw, b ≠ 0x09 ∧ b ≠ 0x0A ∧ b ≠ 0x0D) :
    normalizeValue raw = Text.decodeBytes raw := by
  rw [normalizeValue, List.map_congr_left (g := id) fun b hb => by
      simp [(h b hb).1, (h b hb).2.1, (h b hb).2.2],
    List.map_id]

/-- Escaped text decodes to the text; and an attribute whose value is escaped for double quotes
is read back, strictly or not and at any offset, as that one attribute with that value. -/
theorem escapes_read_back :
    (∀ s : String, Text.decodeBytes (Text.Utf8.encode (Text.escapeText s)) = Text.Utf8.encode s) ∧
    ∀ (v : String) (a : List UInt8), ReadsAsName a → ∀ (offset : Nat) (strict : Bool),
      parseAttributes (0x20 :: (a ++ 0x3D :: 0x22 ::
        (Text.Utf8.encode (Text.escapeAttribute v) ++ [0x22]))) offset strict =
        .ok [⟨a, Text.Utf8.encode v⟩] := by
  refine ⟨Text.decodeBytes_escapeText, fun v a ha offset strict => ?_⟩
  have hbytes := fun b (hb : b ∈ Text.Utf8.encode (Text.escapeAttribute v)) =>
    Text.mem_escapeAttribute hb
  rw [parseAttributes_one ha (fun hm => (hbytes _ hm).1 rfl) (fun hm => (hbytes _ hm).2.1 rfl),
    normalizeValue_of_no_blank (fun b hb => (hbytes b hb).2.2), Text.decodeBytes_escapeAttribute]

/-- The attribute `x` with a value holding a tab, a quote and `<`, read strictly at offset 7. -/
theorem escaped_value_read_back :
    ReadsAsName [0x78] ∧
    parseAttributes (0x20 :: ([0x78] ++ 0x3D :: 0x22 ::
      (Text.Utf8.encode (Text.escapeAttribute "a\t\"<") ++ [0x22]))) 7 true =
      .ok [⟨[0x78], Text.Utf8.encode "a\t\"<"⟩] :=
  have ha : ReadsAsName [0x78] :=
    ⟨fun b hb => by rw [List.mem_singleton.mp hb]; decide, 0x78, [], rfl, rfl, by decide⟩
  ⟨ha, escapes_read_back.2 "a\t\"<" [0x78] ha 7 true⟩

end XmlPointer.Markup
