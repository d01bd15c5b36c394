import Mathlib
import XmlPointer.Proofs.ElementPointer

/-! # The lexemes of pointer text

What the pointer lexer reads, said of the text. `Spells lx t r`: the front of `t` is written as
the lexeme `lx` and `r` follows, a run of blanks, digits or name characters being taken whole.
`Balanced t v`: `t` is escaped scheme data with value `v`. A lexeme is read exactly when the text
spells it (`nextLexeme_eq_ok_iff`), and scheme data exactly when the text is balanced data and
then a `)` (`escapedData_eq_ok_iff`): balanced data is read back to the depth it started at
(`escapedFrom_append`), and what the reader accepts inside brackets is balanced data and the
closing brackets (`escapedFrom_sound`). -/
namespace XmlPointer

def digitsValue (ds : List Char) : Nat :=
  ds.foldl (fun acc c => acc * 10 + (c.toNat - '0'.toNat)) 0

/-- `Spells lx t r`: the front of `t` is written as the lexeme `lx`, and `r` is left after it.
Names and numbers take the longest run of their characters; a name followed by a colon is the
prefix of a qualified name. -/
inductive Spells : Lexeme → List Char → List Char → Prop
  | eof : Spells .eof [] []
  | punctuation {c : Char} {lx : Lexeme} (r : List Char) :
      PointerLexer.punctuation c = some lx → Spells lx (c :: r) r
  | space {bs r : List Char} : bs ≠ [] → (∀ b ∈ bs, Text.isXmlBlank b = true) →
      (∀ c ∈ r.head?, Text.isXmlBlank c = false) → Spells .space (bs ++ r) r
  | number {ds r : List Char} : ds ≠ [] → (∀ d ∈ ds, d.isDigit = true) →
      digitsValue ds ≤ PointerLexer.numberLimit → (∀ c ∈ r.head?, c.isDigit = false) →
      Spells (.number (digitsValue ds)) (ds ++ r) r
  | name {n : String} {r : List Char} : Text.isNCName n = true →
      (∀ c ∈ r.head?, Text.isNameChar c = false ∧ c ≠ ':') →
      Spells (.name n (r.head? == some '(')) (n.toList ++ r) r
  | qualifiedName {p n : String} {r : List Char} : Text.isNCName p = true →
      Text.isNCName n = true → (∀ c ∈ r.head?, Text.isNameChar c = false) →
      Spells (.qualifiedName p n (r.head? == some '(')) (p.toList ++ ':' :: n.toList ++ r) r

theorem Except.map_map {ε α β γ : Type} (f : β → γ) (g : α → β) (x : Except ε α) :
    (x.map g).map f = x.map (f ∘ g) := by
  cases x <;> rfl

theorem Except.map_eq_ok {ε α β : Type} {f : α → β} {x : Except ε α} {b : β}
    (h : x.map f = .ok b) : ∃ a, x = .ok a ∧ f a = b := by
  cases x with
  | error e => cases h
  | ok a => exact ⟨a, rfl, by simpa [Except.map] using h⟩

/-- `Balanced t v`: `t` is escaped scheme data whose value is `v`. A `^` escapes the `^`, `(` or
`)` after it, any other character stands for itself, and unescaped brackets are balanced. -/
inductive Balanced : List Char → List Char → Prop
  | nil : Balanced [] []
  | escape {c : Char} {t v : List Char} : (c = '^' ∨ c = '(' ∨ c = ')') → Balanced t v →
      Balanced ('^' :: c :: t) (c :: v)
  | plain {c : Char} {t v : List Char} : c ≠ '^' → c ≠ '(' → c ≠ ')' → Balanced t v →
      Balanced (c :: t) (c :: v)
  | group {t v t' v' : List Char} : Balanced t v → Balanced t' v' →
      Balanced ('(' :: t ++ ')' :: t') ('(' :: v ++ ')' :: v')

theorem Balanced.append {t v t' v' : List Char} (h : Balanced t v) (h' : Balanced t' v') :
    Balanced (t ++ t') (v ++ v') := by
  induction h with
  | nil => exact h'
  | escape hc _ ih => exact .escape hc ih
  | plain h₁ h₂ h₃ _ ih => exact .plain h₁ h₂ h₃ ih
  | group h₁ _ _ ih => simpa using Balanced.group h₁ ih

/-- Escaped data read inside `d` open brackets: balanced data, then `d` times a `)` that closes
one of them and balanced data after it. -/
def ClosesIn : Nat → List Char → List Char → Prop
  | 0, t, v => Balanced t v
  | d + 1, t, v => ∃ t₁ v₁ t₂ v₂, Balanced t₁ v₁ ∧ ClosesIn d t₂ v₂ ∧
      t = t₁ ++ ')' :: t₂ ∧ v = v₁ ++ ')' :: v₂

theorem ClosesIn.prepend {p q t v : List Char} (hp : Balanced p q) :
    ∀ {d}, ClosesIn d t v → ClosesIn d (p ++ t) (q ++ v)
  | 0, h => hp.append h
  | _ + 1, ⟨t₁, v₁, t₂, v₂, h₁, h₂, ht, hv⟩ =>
    ⟨p ++ t₁, q ++ v₁, t₂, v₂, hp.append h₁, h₂, by simp [ht], by simp [hv]⟩

theorem mem_head?_dropWhile {p : Char → Bool} {l : List Char} {c : Char}
    (h : c ∈ (l.dropWhile p).head?) : p c = false := by
  have := List.head?_dropWhile_not p l
  rw [Option.mem_def] at h
  simpa [h] using this

namespace PointerLexer

theorem skipBlanks_eq (l : PointerLexer) :
    l.skipBlanks = (!(l.rest.takeWhile Text.isXmlBlank).isEmpty,
      ⟨l.rest.dropWhile Text.isXmlBlank, l.offset + (l.rest.takeWhile Text.isXmlBlank).length⟩) := by
  simp [skipBlanks, after, List.span_eq_takeWhile_dropWhile]

theorem skipBlanks_spec (l : PointerLexer) :
    ∃ bs, l.rest = bs ++ l.skipBlanks.2.rest ∧ (∀ b ∈ bs, Text.isXmlBlank b = true) ∧
      (∀ c ∈ l.skipBlanks.2.rest.head?, Text.isXmlBlank c = false) ∧
      l.skipBlanks.2.offset = l.offset + bs.length ∧ l.skipBlanks.1 = !bs.isEmpty := by
  rw [skipBlanks_eq]
  exact ⟨_, (List.takeWhile_append_dropWhile).symm, fun b hb => List.mem_takeWhile_imp hb,
    fun c hc => mem_head?_dropWhile hc, rfl, rfl⟩

theorem numberFrom_eq_ok {start value at_ n : Nat} {cs : List Char} {l' : PointerLexer}
    (h : numberFrom start value at_ cs = (.ok n, l')) :
    ∃ ds, cs = ds ++ l'.rest ∧ (∀ d ∈ ds, d.isDigit = true) ∧
      (∀ c ∈ l'.rest.head?, c.isDigit = false) ∧
      n = ds.foldl (fun acc c => acc * 10 + (c.toNat - '0'.toNat)) value ∧
      (value ≤ numberLimit → n ≤ numberLimit) ∧ l'.offset = at_ + ds.length := by
  induction cs generalizing value at_ with
  | nil =>
    simp only [numberFrom, Prod.mk.injEq, Except.ok.injEq] at h
    obtain ⟨rfl, rfl⟩ := h
    exact ⟨[], rfl, by simp, by simp, rfl, id, rfl⟩
  | cons c cs ih =>
    by_cases hc : c.isDigit = true
    · by_cases hv : value * 10 + (c.toNat - '0'.toNat) > numberLimit
      · rw [numberFrom, if_pos hc, if_pos hv] at h
        simp [malformedAt] at h
      · simp only [numberFrom, hc, if_true, hv, if_false] at h
        obtain ⟨ds, hcs, hds, hhead, hn, hle, hoff⟩ := ih h
        refine ⟨c :: ds, by rw [hcs]; rfl, ?_, hhead, by simpa using hn, fun _ => hle (by omega), ?_⟩
        · intro d hd
          rcases List.mem_cons.mp hd with rfl | hd
          · exact hc
          · exact hds d hd
        · simp only [hoff, List.length_cons]
          omega
    · simp only [numberFrom, hc, Bool.false_eq_true, if_false, Prod.mk.injEq, Except.ok.injEq] at h
      obtain ⟨rfl, rfl⟩ := h
      exact ⟨[], rfl, by simp, by simpa using hc, rfl, id, rfl⟩

theorem name?_eq_some {l l' : PointerLexer} {n : String} (h : l.name? = (some n, l')) :
    l.rest = n.toList ++ l'.rest ∧ Text.isNCName n = true ∧
      (∀ c ∈ l'.rest.head?, Text.isNameChar c = false) ∧ l'.offset = l.offset + n.length := by
  unfold name? at h
  split at h
  · rename_i c cs hrest
    split at h
    · rename_i hc
      simp only [List.span_eq_takeWhile_dropWhile, after, Prod.mk.injEq, Option.some.injEq] at h
      obtain ⟨rfl, rfl⟩ := h
      refine ⟨by simp [hrest], ?_, fun c' hc' => mem_head?_dropWhile hc', ?_⟩
      · simp only [Text.isNCName, String.toList_ofList, Text.isNCNameList, hc, Bool.true_and,
          List.all_eq_true]
        exact fun x hx => List.mem_takeWhile_imp hx
      · simp only [String.length_ofList, List.length_cons]
        omega
    · simp at h
  · simp at h

theorem name?_eq_none {l l' : PointerLexer} (h : l.name? = (none, l')) :
    l' = l ∧ ∀ c ∈ l.rest.head?, Text.isNameStart c = false := by
  unfold name? at h
  split at h
  · rename_i c cs hrest
    split at h
    · simp at h
    · rename_i hc
      simp only [Prod.mk.injEq] at h
      exact ⟨h.2.symm, by simpa [hrest] using hc⟩
  · rename_i hrest
    simp only [Prod.mk.injEq] at h
    exact ⟨h.2.symm, by simp [hrest]⟩

theorem nameLexeme_eq_ok {l l' : PointerLexer} {lx : Lexeme} (h : nameLexeme l = (.ok lx, l')) :
    Spells lx l.rest l'.rest ∧ l'.offset = l.offset + (l.rest.length - l'.rest.length) := by
  unfold nameLexeme at h
  rcases hn : l.name? with ⟨_ | n, l₁⟩
  · rw [hn] at h
    simp [malformedAt] at h
  obtain ⟨hrest, hN, hhead, hoff⟩ := name?_eq_some hn
  rw [hn] at h
  dsimp only at h
  split at h
  · -- a colon after the name: the local part of a qualified name follows
    rename_i cs hcolon
    rcases hm : (l₁.after 1 cs).name? with ⟨_ | m, l₂⟩
    · rw [hm] at h
      simp [malformedAt] at h
    obtain ⟨hrest₂, hM, hhead₂, hoff₂⟩ := name?_eq_some hm
    rw [hm] at h
    simp only [Prod.mk.injEq, Except.ok.injEq] at h
    obtain ⟨rfl, rfl⟩ := h
    simp only [after] at hrest₂ hoff₂
    have hl : l.rest = n.toList ++ ':' :: m.toList ++ l₂.rest := by
      rw [hrest, hcolon, hrest₂]; simp
    refine ⟨?_, ?_⟩
    · rw [hl]
      exact Spells.qualifiedName hN hM hhead₂
    · rw [hoff₂, hoff, hl]
      simp only [List.length_append, List.length_cons, String.length_toList]
      omega
  · rename_i hcolon
    simp only [Prod.mk.injEq, Except.ok.injEq] at h
    obtain ⟨rfl, rfl⟩ := h
    refine ⟨?_, ?_⟩
    · rw [hrest]
      refine Spells.name hN fun c hc => ⟨hhead c hc, ?_⟩
      rintro rfl
      cases hr : l₁.rest with
      | nil => simp [hr] at hc
      | cons c' cs => simp [hr] at hc; exact hcolon cs (hc ▸ hr)
    · rw [hoff, hrest]
      simp [String.length_toList]

theorem nextLexeme_sound {l l' : PointerLexer} {lx : Lexeme} (h : nextLexeme l = (.ok lx, l')) :
    Spells lx l.rest l'.rest ∧ l'.offset = l.offset + (l.rest.length - l'.rest.length) := by
  unfold nextLexeme at h
  split at h
  · rename_i hrest
    simp only [Prod.mk.injEq, Except.ok.injEq] at h
    obtain ⟨rfl, rfl⟩ := h
    rw [hrest]
    exact ⟨.eof, by simp⟩
  rename_i c cs hrest
  split at h
  · -- one punctuation character
    rename_i t hp
    simp only [Prod.mk.injEq, Except.ok.injEq] at h
    obtain ⟨rfl, rfl⟩ := h
    rw [hrest]
    exact ⟨.punctuation cs hp, by simp [after]⟩
  split at h
  · -- a run of blanks
    rename_i hblank
    simp only [Prod.mk.injEq, Except.ok.injEq] at h
    obtain ⟨rfl, rfl⟩ := h
    obtain ⟨bs, hbs, hall, hhead, hoff, -⟩ := skipBlanks_spec l
    have hne : bs ≠ [] := by
      rintro rfl
      rw [List.nil_append] at hbs
      have := hhead c (by simp [← hbs, hrest])
      rw [hblank] at this
      cases this
    refine ⟨hbs ▸ .space hne hall hhead, ?_⟩
    rw [hoff, hbs]
    simp
  split at h
  · -- a number
    rename_i hdigit
    rcases hnum : numberFrom l.offset 0 l.offset l.rest with ⟨_ | n, l₁⟩
    · rw [hnum] at h
      simp [Except.map] at h
    rw [hnum] at h
    simp only [Except.map, Prod.mk.injEq, Except.ok.injEq] at h
    obtain ⟨rfl, rfl⟩ := h
    obtain ⟨ds, hds, hall, hhead, rfl, hle, hoff⟩ := numberFrom_eq_ok hnum
    have hne : ds ≠ [] := by
      rintro rfl
      rw [List.nil_append] at hds
      have := hhead c (by simp [← hds, hrest])
      rw [hdigit] at this
      cases this
    refine ⟨hds ▸ .number hne hall (hle (Nat.zero_le _)) hhead, ?_⟩
    rw [hoff, hds]
    simp
  split at h
  · exact nameLexeme_eq_ok h
  · simp [malformedAt] at h

theorem nextLexeme_complete {lx : Lexeme} {t r : List Char} (h : Spells lx t r) (off : Nat) :
    nextLexeme ⟨t, off⟩ = (.ok lx, ⟨r, off + (t.length - r.length)⟩) := by
  cases h with
  | eof => rfl
  | punctuation r hp => simp [nextLexeme, hp, after]
  | @space bs r hne hall hhead =>
    obtain ⟨b, bs', rfl⟩ := List.exists_cons_of_ne_nil hne
    have hb := hall b (List.mem_cons_self ..)
    have hspan : ((b :: bs') ++ r).span Text.isXmlBlank = (b :: bs', r) :=
      span_append_of_all hall fun y ys hy => hhead y (by simp [hy])
    have hskip : skipBlanks ⟨(b :: bs') ++ r, off⟩ = (true, ⟨r, off + (bs'.length + 1)⟩) := by
      simp only [skipBlanks, hspan, after]
      simp
    simp only [List.cons_append, nextLexeme, punctuation_eq_none (by decide) hb, hb, if_true]
    rw [← List.cons_append, hskip]
    simp only [List.length_cons, List.length_append, Prod.mk.injEq, PointerLexer.mk.injEq, true_and]
    omega
  | @number ds r hne hall hle hhead =>
    obtain ⟨d, ds', rfl⟩ := List.exists_cons_of_ne_nil hne
    have hd := hall d (List.mem_cons_self ..)
    have hnum := numberFrom_digits off hall hhead 0 off hle
    simp only [List.cons_append, nextLexeme, punctuation_eq_none (by decide) hd,
      Text.isXmlBlank_eq_false (by decide) hd, hd, Bool.false_eq_true, if_false, if_true]
    rw [← List.cons_append, hnum]
    simp only [Except.map, digitsValue, List.length_cons, List.length_append, Prod.mk.injEq, true_and]
    congr 1
    omega
  | @name n r hN hhead =>
    rw [nextLexeme_name hN r (fun y ys hy => (hhead y (by simp [hy])).1)
      (fun hc => (hhead ':' (by simp [hc])).2 rfl) off]
    simp [String.length_toList]
  | @qualifiedName p n r hP hN hhead =>
    obtain ⟨x, xs, hx, hs, -⟩ := Text.isNCName_toList hP
    have hp := name?_name hP (':' :: n.toList ++ r) (fun y ys hy => by cases hy; rfl) off
    have hn := name?_name hN r (fun y ys hy => hhead y (by simp [hy])) (off + p.length + 1)
    have hlex : nameLexeme ⟨p.toList ++ ':' :: n.toList ++ r, off⟩ =
        (.ok (.qualifiedName p n (r.head? == some '(')), ⟨r, off + p.length + 1 + n.length⟩) := by
      simp only [nameLexeme, List.append_assoc, List.cons_append] at hp ⊢
      rw [hp]
      simp only [after]
      rw [hn]
      rfl
    have hfirst : (p.toList ++ ':' :: n.toList ++ r) = x :: (xs ++ ':' :: n.toList ++ r) := by
      rw [hx]; simp
    rw [hfirst] at hlex ⊢
    simp only [nextLexeme, punctuation_eq_none (by decide) hs, Text.isXmlBlank_eq_false (by decide) hs,
      Text.isDigit_of_isNameStart hs, hs, Bool.false_eq_true, if_false, if_true]
    rw [hlex]
    have hlen : p.length = xs.length + 1 := by rw [← String.length_toList, hx]; simp
    simp only [List.length_cons, List.length_append, String.length_toList]
    congr 2
    omega

theorem nextLexeme_eq_ok_iff {l l' : PointerLexer} {lx : Lexeme} :
    nextLexeme l = (.ok lx, l') ↔
      Spells lx l.rest l'.rest ∧ l'.offset = l.offset + (l.rest.length - l'.rest.length) := by
  refine ⟨nextLexeme_sound, fun ⟨hs, hoff⟩ => ?_⟩
  have := nextLexeme_complete hs l.offset
  rw [← hoff] at this
  exact this

/-- Reading balanced data gives its value and goes on after it at the same depth. -/
theorem escapedFrom_append {t v : List Char} (h : Balanced t v) :
    ∀ depth at_ (s : List Char), escapedFrom depth at_ (t ++ s) =
      ((escapedFrom depth (at_ + t.length) s).1.map (v ++ ·), (escapedFrom depth (at_ + t.length) s).2) := by
  induction h with
  | nil =>
    intro depth at_ s
    simp only [List.nil_append, List.length_nil, Nat.add_zero]
    generalize escapedFrom depth at_ s = x
    rcases x with ⟨_ | _, l⟩ <;> rfl
  | @escape c t v hc _ ih =>
    intro depth at_ s
    have hc' : (c = '^' || c = '(' || c = ')') = true := by rcases hc with rfl | rfl | rfl <;> rfl
    simp only [List.cons_append, escapedFrom, hc', if_true, ih, List.length_cons, Except.map_map]
    rw [show at_ + 2 + t.length = at_ + (t.length + 1 + 1) by omega]
    rfl
  | @plain c t v h₁ h₂ h₃ _ ih =>
    intro depth at_ s
    have hplain : escapedFrom depth at_ (c :: (t ++ s)) =
        ((escapedFrom depth (at_ + 1) (t ++ s)).1.map (c :: ·), (escapedFrom depth (at_ + 1) (t ++ s)).2) := by
      rw [escapedFrom.eq_def]
      split <;> simp_all
    simp only [List.cons_append, hplain, ih, List.length_cons, Except.map_map]
    rw [show at_ + 1 + t.length = at_ + (t.length + 1) by omega]
    rfl
  | @group t₁ v₁ t₂ v₂ _ _ ih₁ ih₂ =>
    intro depth at_ s
    -- the group's own `)` takes the depth back to where the group started
    have hclose : ∀ x (rest : List Char), escapedFrom (depth + 1) x (')' :: rest) =
        ((escapedFrom depth (x + 1) rest).1.map (')' :: ·), (escapedFrom depth (x + 1) rest).2) :=
      fun _ _ => rfl
    simp only [List.cons_append, List.append_assoc, escapedFrom, ih₁, hclose, ih₂, Except.map_map,
      List.length_cons, List.length_append]
    rw [show at_ + 1 + t₁.length + 1 + t₂.length = at_ + (t₁.length + (t₂.length + 1) + 1) by omega]
    congr 2

/-- Escaped data read inside `depth` brackets ends at a `)` after data that closes them. -/
theorem escapedFrom_sound {depth at_ : Nat} {t v : List Char} {l : PointerLexer}
    (h : escapedFrom depth at_ t = (.ok v, l)) :
    ∃ data, t = data ++ ')' :: l.rest ∧ ClosesIn depth data v := by
  fun_induction escapedFrom depth at_ t generalizing v l with
  | case1 | case2 | case4 => simp [malformedAt] at h
  | case3 depth at_ c cs hc r l₀ hr ih =>
    -- an escaped character
    simp only [Prod.mk.injEq] at h
    obtain ⟨v', rfl, rfl⟩ := Except.map_eq_ok h.1
    obtain ⟨data, hcs, hdata⟩ := ih (h.2 ▸ hr)
    have hc' : c = '^' ∨ c = '(' ∨ c = ')' := by simpa [or_assoc] using hc
    exact ⟨'^' :: c :: data, by rw [hcs]; rfl,
      ClosesIn.prepend (p := ['^', c]) (q := [c]) (.escape hc' .nil) hdata⟩
  | case5 depth at_ cs r l₀ hr ih =>
    -- an open bracket: the data inside it is balanced and ends at its `)`
    simp only [Prod.mk.injEq] at h
    obtain ⟨v', rfl, rfl⟩ := Except.map_eq_ok h.1
    obtain ⟨data, hcs, t₁, v₁, t₂, v₂, h₁, h₂, rfl, rfl⟩ := ih (h.2 ▸ hr)
    refine ⟨'(' :: t₁ ++ ')' :: t₂, by rw [hcs]; simp, ?_⟩
    have := ClosesIn.prepend (Balanced.group h₁ Balanced.nil) h₂
    simpa using this
  | case6 at_ cs =>
    simp only [Prod.mk.injEq, Except.ok.injEq] at h
    obtain ⟨rfl, rfl⟩ := h
    exact ⟨[], rfl, Balanced.nil⟩
  | case7 depth at_ cs r l₀ hr ih =>
    -- a `)` closing one of the open brackets
    simp only [Prod.mk.injEq] at h
    obtain ⟨v', rfl, rfl⟩ := Except.map_eq_ok h.1
    obtain ⟨data, hcs, hdata⟩ := ih (h.2 ▸ hr)
    exact ⟨')' :: data, by rw [hcs]; rfl, [], [], data, v', .nil, hdata, rfl, rfl⟩
  | case8 depth at_ c cs h₁ h₂ h₃ h₄ h₅ r l₀ hr ih =>
    simp only [Prod.mk.injEq] at h
    obtain ⟨v', rfl, rfl⟩ := Except.map_eq_ok h.1
    obtain ⟨data, hcs, hdata⟩ := ih (h.2 ▸ hr)
    have hcaret : c ≠ '^' := by
      intro hc
      cases cs with
      | nil => exact h₁ hc rfl
      | cons c' cs => exact h₂ c' cs hc rfl
    have hclose : c ≠ ')' := by
      intro hc
      cases depth with
      | zero => exact h₄ rfl hc
      | succ d => exact h₅ d rfl hc
    exact ⟨c :: data, by rw [hcs]; rfl,
      ClosesIn.prepend (p := [c]) (q := [c]) (.plain hcaret h₃ hclose .nil) hdata⟩

theorem escapedFrom_balanced {data v : List Char} (h : Balanced data v) (at_ : Nat) (rest : List Char) :
    escapedFrom 0 at_ (data ++ ')' :: rest) = (.ok v, ⟨rest, at_ + data.length + 1⟩) := by
  rw [escapedFrom_append h]
  simp [escapedFrom, Except.map]

theorem escapedData_eq_ok_iff {l l' : PointerLexer} {v : String} :
    escapedData l = (.ok v, l') ↔
      ∃ data, l.rest = data ++ ')' :: l'.rest ∧ Balanced data v.toList ∧
        l'.offset = l.offset + data.length + 1 := by
  constructor
  · intro h
    rcases hr : escapedFrom 0 l.offset l.rest with ⟨_ | v', l₁⟩
    · simp [escapedData, hr, Except.map] at h
    obtain ⟨data, hrest, hdata⟩ := escapedFrom_sound hr
    have hdata' : Balanced data v' := hdata
    simp only [escapedData, hr, Except.map, Prod.mk.injEq, Except.ok.injEq] at h
    obtain ⟨rfl, rfl⟩ := h
    have hrun := escapedFrom_balanced hdata' l.offset l₁.rest
    rw [← hrest, hr] at hrun
    simp only [Prod.mk.injEq] at hrun
    refine ⟨data, hrest, by simpa using hdata', by rw [hrun.2]⟩
  · rintro ⟨data, hrest, hdata, hoff⟩
    have hrun := escapedFrom_balanced hdata l.offset l'.rest
    rw [← hrest] at hrun
    simp only [escapedData, hrun, Except.map, String.ofList_toList, ← hoff]

end PointerLexer

end XmlPointer
