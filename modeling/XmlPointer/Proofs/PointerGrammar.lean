import Mathlib
import XmlPointer.Proofs.PointerLexing

/-! # The grammar of scheme-based pointers

Scheme-based pointer text is described by relations over lists of characters in
difference-list style: `R t x r` says that the front of `t` is derived by `R` with value `x`
and `r` is what follows. `SchemeParts parts t out` is the whole language: scheme invocations,
each followed by blanks, where the scheme a prefixed name denotes depends on the `xmlns()`
parts read before it, and each payload follows the grammar of the scheme it denotes.

Each reader of the parser is shown sound (what it reads is derived, with the value it
returns) and complete (what is derived, it reads, leaving exactly the rest). -/

namespace XmlPointer

def SkipsBlanks (t r : List Char) : Prop :=
  ∃ bs, t = bs ++ r ∧ (∀ b ∈ bs, Text.isXmlBlank b = true) ∧ ∀ c ∈ r.head?, Text.isXmlBlank c = false

/-- `Positions t ns r`: the child positions `/n₁/…/nₖ` of an `element()` payload and its `)`
are the front of `t`, each a run of digits valued from 1 to the limit, and `r` follows. -/
inductive Positions : List Char → List Nat → List Char → Prop
  | close (r : List Char) : Positions (')' :: r) [] r
  | step {ds t : List Char} {ns : List Nat} {r : List Char} : ds ≠ [] →
      (∀ d ∈ ds, d.isDigit = true) → 1 ≤ digitsValue ds → digitsValue ds ≤ PointerLexer.numberLimit →
      Positions t ns r → Positions ('/' :: ds ++ t) (digitsValue ds :: ns) r

/-- The payload of `element()` and its `)`: nothing, an NCName and child positions, or at least
one child position; an empty payload gives no part. -/
inductive ElementPayload : List Char → Option Part → List Char → Prop
  | empty (r : List Char) : ElementPayload (')' :: r) none r
  | named {n : String} {t : List Char} {ns : List Nat} {r : List Char} : Text.isNCName n = true →
      Positions t ns r → ElementPayload (n.toList ++ t) (some (.element (some n) ns)) r
  | children {t : List Char} {ns : List Nat} {r : List Char} : Positions ('/' :: t) ns r →
      ElementPayload ('/' :: t) (some (.element none ns)) r

/-- The payload of `xmlns()` and its `)`: blanks, an NCName prefix, blanks, `=`, blanks, and
escaped data that does not start with a blank, which is the URI. -/
inductive XmlnsPayload : List Char → Part → List Char → Prop
  | mk {t u w data v r : List Char} {pre : String} : SkipsBlanks t (pre.toList ++ u) →
      Text.isNCName pre = true → SkipsBlanks u ('=' :: w) → SkipsBlanks w (data ++ ')' :: r) →
      Balanced data v → XmlnsPayload t (.xmlns pre (String.ofList v)) r

def expressionPart (make : String → Part) (v : List Char) : Option Part :=
  if v.all Text.isUnicodeBlank then none else some (make (String.ofList v))

/-- The payload of a scheme and its `)`, with the part it gives. -/
inductive SchemePayload : PointerParser.Scheme → List Char → Option Part → List Char → Prop
  | element {t : List Char} {o : Option Part} {r : List Char} :
      ElementPayload t o r → SchemePayload .element t o r
  | xmlns {t : List Char} {p : Part} {r : List Char} : XmlnsPayload t p r → SchemePayload .xmlns t (some p) r
  | xpath1 {data v r : List Char} : Balanced data v →
      SchemePayload .xpath1 (data ++ ')' :: r) (expressionPart .xpath1 v) r
  | xpointer {data v r : List Char} : Balanced data v →
      SchemePayload .xpointer (data ++ ')' :: r) (expressionPart .xpointer v) r
  | unknown {data v r : List Char} : Balanced data v → SchemePayload .unknown (data ++ ')' :: r) none r

/-- The scheme a name denotes after the parts read so far: a built-in scheme when the name is
unprefixed, or when the latest `xmlns()` part for its prefix binds it to the empty URI; any
other scheme is unknown. The name and the `(` are the front of the text. -/
inductive SchemeName (parts : List Part) : List Char → PointerParser.Scheme → List Char → Prop
  | plain {n : String} {r : List Char} : Text.isNCName n = true →
      SchemeName parts (n.toList ++ '(' :: r) (.lookup "" n) r
  | prefixed {p n : String} {r : List Char} : Text.isNCName p = true → Text.isNCName n = true →
      SchemeName parts (p.toList ++ ':' :: n.toList ++ '(' :: r)
        (if PointerParser.boundUri parts p = some "" then .lookup "" n else .unknown) r

/-- `SchemeParts parts t out`: `t` is a sequence of scheme invocations, each followed by blanks,
and reading them after `parts` gives the parts `out`. -/
inductive SchemeParts : List Part → List Char → List Part → Prop
  | done (parts : List Part) : SchemeParts parts [] parts
  | step {parts : List Part} {t u w w' : List Char} {s : PointerParser.Scheme} {o : Option Part}
      {out : List Part} : SchemeName parts t s u → SchemePayload s u o w → SkipsBlanks w w' →
      SchemeParts (parts ++ o.toList) w' out → SchemeParts parts t out

theorem Text.trimBy_eq_nil_iff (p : Char → Bool) (cs : List Char) :
    Text.trimBy p cs = [] ↔ ∀ c ∈ cs, p c = true := by
  unfold Text.trimBy
  rw [List.reverse_eq_nil_iff, List.dropWhile_eq_nil_iff]
  simp only [List.mem_reverse]
  constructor
  · -- what is left after the leading run starts with a character outside it
    intro h
    rw [← List.dropWhile_eq_nil_iff]
    cases hd : cs.dropWhile p with
    | nil => rfl
    | cons c rest =>
      have hc := h c (by simp [hd])
      have := mem_head?_dropWhile (p := p) (l := cs) (c := c) (by simp [hd])
      rw [hc] at this
      cases this
  · intro h c hc
    rw [List.dropWhile_eq_nil_iff.mpr h] at hc
    cases hc

theorem Text.trimUnicode_isEmpty (v : List Char) :
    (Text.trimUnicode (String.ofList v)).isEmpty = v.all Text.isUnicodeBlank := by
  rw [Bool.eq_iff_iff, String.isEmpty_iff, List.all_eq_true, ← Text.trimBy_eq_nil_iff,
    Text.trimUnicode, String.toList_ofList]
  constructor
  · intro h
    simpa using congrArg String.toList h
  · intro h
    rw [h]

theorem Positions.ne_nil_of_slash {t : List Char} {ns : List Nat} {r : List Char}
    (h : Positions ('/' :: t) ns r) : ns ≠ [] := by
  cases h with
  | step => exact List.cons_ne_nil _ _

theorem SkipsBlanks.length_le {t r : List Char} (h : SkipsBlanks t r) : r.length ≤ t.length := by
  obtain ⟨bs, rfl, -, -⟩ := h
  simp

theorem Positions.length_lt {t : List Char} {ns : List Nat} {r : List Char} (h : Positions t ns r) :
    r.length < t.length := by
  induction h with
  | close => simp
  | step _ _ _ _ _ ih => simp; omega

theorem Positions.head {t : List Char} {ns : List Nat} {r : List Char} (h : Positions t ns r) :
    ∃ c t₀, t = c :: t₀ ∧ (c = '/' ∨ c = ')') := by
  cases h with
  | close r => exact ⟨')', r, rfl, .inr rfl⟩
  | step => exact ⟨'/', _, rfl, .inl rfl⟩

theorem Positions.spells_head {t : List Char} {ns : List Nat} {r : List Char}
    (h : Positions t ns r) : ∃ c t₀ lx, t = c :: t₀ ∧ Spells lx t t₀ ∧ c.isDigit = false ∧
      Text.isNameChar c = false ∧ c ≠ ':' ∧ c ≠ '(' := by
  obtain ⟨c, t₀, rfl, hc⟩ := h.head
  rcases hc with rfl | rfl
  · exact ⟨_, t₀, _, rfl, .punctuation t₀ rfl, by decide⟩
  · exact ⟨_, t₀, _, rfl, .punctuation t₀ rfl, by decide⟩

theorem Positions.count_lt_length {t : List Char} {ns : List Nat} {r : List Char}
    (h : Positions t ns r) : ns.length < t.length := by
  induction h with
  | close => simp
  | @step ds _ _ _ hne _ _ _ _ ih =>
    have := List.length_pos_of_ne_nil hne
    simp only [List.length_cons, List.length_append]
    omega

theorem Text.ends_name_of_isXmlBlank {c : Char} (h : Text.isXmlBlank c = true) :
    Text.isNameChar c = false ∧ c ≠ ':' := by
  simp only [Text.isXmlBlank, Bool.or_eq_true, decide_eq_true_eq] at h
  rcases h with ((rfl | rfl) | rfl) | rfl <;> decide

theorem SkipsBlanks.head_ends_name {u w : List Char} {c : Char} (h : SkipsBlanks u (c :: w))
    (hc : Text.isNameChar c = false) (hcolon : c ≠ ':') :
    ∀ x ∈ u.head?, Text.isNameChar x = false ∧ x ≠ ':' := by
  obtain ⟨bs, rfl, hbs, -⟩ := h
  cases bs with
  | nil => simpa using ⟨hc, hcolon⟩
  | cons b bs => simpa using Text.ends_name_of_isXmlBlank (hbs b (List.mem_cons_self ..))

theorem ElementPayload.length_lt {t : List Char} {o : Option Part} {r : List Char}
    (h : ElementPayload t o r) : r.length < t.length := by
  cases h with
  | empty => simp
  | named _ hp => have := hp.length_lt; simp; omega
  | children hp => exact hp.length_lt

theorem SchemePayload.length_lt {s : PointerParser.Scheme} {t : List Char} {o : Option Part}
    {r : List Char} (h : SchemePayload s t o r) : r.length < t.length := by
  cases h with
  | element h => exact h.length_lt
  | xmlns h =>
    obtain ⟨h₁, -, h₂, h₃, -⟩ := h
    have := h₁.length_le
    have := h₂.length_le
    have := h₃.length_le
    simp at *
    omega
  | xpath1 | xpointer | unknown =>
    simp only [List.length_append, List.length_cons]
    omega

namespace PointerLexer

theorem punctuation_eq_some {c : Char} {lx : Lexeme} (h : punctuation c = some lx) :
    (c = '(' ∧ lx = .leftParen) ∨ (c = ')' ∧ lx = .rightParen) ∨ (c = '^' ∧ lx = .circumflex) ∨
      (c = '=' ∧ lx = .equals) ∨ (c = '/' ∧ lx = .slash) := by
  unfold punctuation at h
  split at h <;> simp_all

theorem punctuation_inj {c c' : Char} {lx : Lexeme} (h : punctuation c = some lx)
    (h' : punctuation c' = some lx) : c = c' := by
  rcases punctuation_eq_some h with ⟨rfl, rfl⟩ | ⟨rfl, rfl⟩ | ⟨rfl, rfl⟩ | ⟨rfl, rfl⟩ | ⟨rfl, rfl⟩ <;>
  simpa [eq_comm] using punctuation_eq_some h'

end PointerLexer

open PointerLexer

theorem Spells.punctuation_inv {c : Char} {lx : Lexeme} {t r : List Char}
    (hc : PointerLexer.punctuation c = some lx) (h : Spells lx t r) : t = c :: r := by
  cases h with
  | punctuation r hp => rw [punctuation_inj hp hc]
  | eof | space | number | name | qualifiedName => exact absurd (punctuation_eq_some hc) (by simp)

theorem Spells.number_inv {n : Nat} {t r : List Char} (h : Spells (.number n) t r) :
    ∃ ds, t = ds ++ r ∧ ds ≠ [] ∧ (∀ d ∈ ds, d.isDigit = true) ∧ n = digitsValue ds ∧
      n ≤ numberLimit ∧ ∀ c ∈ r.head?, c.isDigit = false := by
  cases h with
  | number hne hall hle hhead => exact ⟨_, rfl, hne, hall, rfl, hle, hhead⟩
  | punctuation r hp => exact absurd (punctuation_eq_some hp) (by simp)

theorem Spells.name_inv {n : String} {b : Bool} {t r : List Char} (h : Spells (.name n b) t r) :
    t = n.toList ++ r ∧ Text.isNCName n = true ∧ (∀ c ∈ r.head?, Text.isNameChar c = false ∧ c ≠ ':') ∧
      b = (r.head? == some '(') := by
  cases h with
  | name hN hhead => exact ⟨rfl, hN, hhead, rfl⟩
  | punctuation r hp => exact absurd (punctuation_eq_some hp) (by simp)

theorem Spells.qualifiedName_inv {p n : String} {b : Bool} {t r : List Char}
    (h : Spells (.qualifiedName p n b) t r) :
    t = p.toList ++ ':' :: n.toList ++ r ∧ Text.isNCName p = true ∧ Text.isNCName n = true ∧
      (∀ c ∈ r.head?, Text.isNameChar c = false) ∧ b = (r.head? == some '(') := by
  cases h with
  | qualifiedName hP hN hhead => exact ⟨rfl, hP, hN, hhead, rfl⟩
  | punctuation r hp => exact absurd (punctuation_eq_some hp) (by simp)

theorem Spells.length_le {lx : Lexeme} {t r : List Char} (h : Spells lx t r) : r.length ≤ t.length := by
  cases h <;> simp only [List.length_append, List.length_cons, List.length_nil] <;> omega

theorem Spells.unique {lx lx' : Lexeme} {t r r' : List Char} (h : Spells lx t r) (h' : Spells lx' t r') :
    lx = lx' ∧ r = r' := by
  have h₁ := nextLexeme_complete h 0
  rw [nextLexeme_complete h' 0] at h₁
  simp only [Prod.mk.injEq, Except.ok.injEq, PointerLexer.mk.injEq] at h₁
  exact ⟨h₁.1.symm, h₁.2.1.symm⟩

theorem Spells.eof_inv {t r : List Char} (h : Spells .eof t r) : t = [] ∧ r = [] := by
  cases h with
  | eof => exact ⟨rfl, rfl⟩
  | punctuation r hp => exact absurd (punctuation_eq_some hp) (by simp)

theorem Spells.nil_inv {lx : Lexeme} {r : List Char} (h : Spells lx [] r) : lx = .eof ∧ r = [] := by
  obtain ⟨h₁, h₂⟩ := Spells.eof.unique h
  exact ⟨h₁.symm, h₂.symm⟩

theorem Spells.schemeName {n : String} (r : List Char) (hN : Text.isNCName n = true) :
    Spells (.name n true) (n.toList ++ '(' :: r) ('(' :: r) := by
  simpa using Spells.name (r := '(' :: r) hN (by simp; decide)

theorem Spells.qualifiedSchemeName {p n : String} (r : List Char) (hP : Text.isNCName p = true)
    (hN : Text.isNCName n = true) :
    Spells (.qualifiedName p n true) (p.toList ++ ':' :: n.toList ++ '(' :: r) ('(' :: r) := by
  simpa using Spells.qualifiedName (r := '(' :: r) hP hN (by simp; decide)

theorem SchemeParts.spells_first {parts out : List Part} {t : List Char} (h : SchemeParts parts t out) :
    ∃ lx r, Spells lx t r := by
  cases h with
  | done => exact ⟨_, _, .eof⟩
  | step hname =>
    cases hname with
    | plain hN => exact ⟨_, _, Spells.schemeName _ hN⟩
    | prefixed hP hN => exact ⟨_, _, Spells.qualifiedSchemeName _ hP hN⟩

theorem SchemeName.length_lt {parts : List Part} {t u : List Char} {s : PointerParser.Scheme}
    (h : SchemeName parts t s u) : u.length < t.length := by
  cases h <;> simp <;> omega

namespace PointerParser

open PointerLexer

theorem run_bind_eq_ok {α β : Type} {x : PointerParser α} {f : α → PointerParser β}
    {l l' : PointerLexer} {b : β} (h : (x >>= f).run l = .ok (b, l')) :
    ∃ a l₁, x.run l = .ok (a, l₁) ∧ (f a).run l₁ = .ok (b, l') := by
  rw [StateT.run_bind] at h
  rcases hx : x.run l with e | ⟨a, l₁⟩
  · rw [hx] at h
    cases h
  · rw [hx] at h
    exact ⟨a, l₁, rfl, h⟩

theorem lift_run_eq_ok {α : Type} {f : PointerLexer → PointerLexer.Read α} {l l' : PointerLexer}
    {a : α} : (lift f).run l = .ok (a, l') ↔ f l = (.ok a, l') := by
  simp only [lift, StateT.run]
  rcases f l with ⟨e | a', l''⟩ <;> simp

theorem next_run_eq_ok {l l' : PointerLexer} {lx : Lexeme} :
    next.run l = .ok (lx, l') ↔ nextLexeme l = (.ok lx, l') :=
  lift_run_eq_ok

theorem get_run_eq_ok {l l₀ l₁ : PointerLexer}
    (h : (get : PointerParser PointerLexer).run l = .ok (l₀, l₁)) : l = l₀ ∧ l = l₁ := by
  simp only [StateT.run_get, pure, Except.pure, Except.ok.injEq, Prod.mk.injEq] at h
  exact h

theorem pure_run_eq_ok {α : Type} {a b : α} {l l' : PointerLexer}
    (h : (pure a : PointerParser α).run l = .ok (b, l')) : a = b ∧ l = l' := by
  have h' : (Except.ok (a, l) : Except PointerError (α × PointerLexer)) = .ok (b, l') := h
  simp only [Except.ok.injEq, Prod.mk.injEq] at h'
  exact h'

theorem map_run_eq_ok {α β : Type} {f : α → β} {x : PointerParser α} {l l' : PointerLexer} {b : β}
    (h : (f <$> x).run l = .ok (b, l')) : ∃ a, x.run l = .ok (a, l') ∧ f a = b := by
  rw [StateT.run_map] at h
  rcases hx : x.run l with e | ⟨a, l₁⟩
  · rw [hx] at h
    cases h
  · rw [hx] at h
    have h' : (Except.ok (f a, l₁) : Except PointerError (β × PointerLexer)) = .ok (b, l') := h
    simp only [Except.ok.injEq, Prod.mk.injEq] at h'
    obtain ⟨rfl, rfl⟩ := h'
    exact ⟨a, rfl, rfl⟩

theorem skipBlanks_run (l : PointerLexer) : skipBlanks.run l = .ok ((), l.skipBlanks.2) := rfl

theorem skipsBlanks_skipBlanks (l : PointerLexer) : SkipsBlanks l.rest l.skipBlanks.2.rest := by
  obtain ⟨bs, hbs, hall, hhead, -⟩ := skipBlanks_spec l
  exact ⟨bs, hbs, hall, hhead⟩

theorem skipBlanks_sound {l l' : PointerLexer} {u : Unit} (h : skipBlanks.run l = .ok (u, l')) :
    SkipsBlanks l.rest l'.rest := by
  rw [skipBlanks_run, Except.ok.injEq, Prod.mk.injEq] at h
  rw [← h.2]
  exact skipsBlanks_skipBlanks l

theorem escapedData_run_eq_ok {l l' : PointerLexer} {v : String} :
    escapedData.run l = .ok (v, l') ↔ PointerLexer.escapedData l = (.ok v, l') :=
  lift_run_eq_ok

theorem failHere_run {α : Type} (f : PointerFault) (l : PointerLexer) :
    (failHere f : PointerParser α).run l = .error (.malformed f l.offset) := rfl

theorem unexpected_run {α : Type} (e : String) (lx : Lexeme) (l : PointerLexer) :
    (unexpected e lx : PointerParser α).run l = .error (.malformed (.unexpected e lx) l.offset) := rfl

/-- The lexemes after a `/` in an `element()` payload are child positions up to the `)`. -/
theorem elementPositions_sound : ∀ (fuel : Nat) (lx : Lexeme) (l l' : PointerLexer) (ns : List Nat)
    (t : List Char), (elementPositions fuel lx).run l = .ok (ns, l') → Spells lx t l.rest →
      Positions t ns l'.rest := by
  intro fuel
  induction fuel with
  | zero => intro lx l l' ns t h; simp [elementPositions, failHere_run] at h
  | succ fuel ih =>
    intro lx l l' ns t h hlx
    cases lx with
    | rightParen =>
      rw [Spells.punctuation_inv (c := ')') rfl hlx]
      obtain ⟨rfl, rfl⟩ := pure_run_eq_ok h
      exact .close _
    | slash =>
      rw [Spells.punctuation_inv (c := '/') rfl hlx]
      simp only [elementPositions] at h
      obtain ⟨l₀, l₁, hget, h₁⟩ := run_bind_eq_ok h
      obtain ⟨rfl, rfl⟩ := get_run_eq_ok hget
      obtain ⟨m, l₂, hm, h⟩ := run_bind_eq_ok h₁
      split at h
      · cases h
      · -- a position: its digits, then the lexemes after it
        rename_i n hn
        obtain ⟨ds, hds, hne, hall, rfl, hle, -⟩ :=
          Spells.number_inv (nextLexeme_sound (next_run_eq_ok.mp hm)).1
        obtain ⟨lx₂, l₃, hnext, h⟩ := run_bind_eq_ok h
        obtain ⟨rest, l₄, hpos, h⟩ := run_bind_eq_ok h
        obtain ⟨rfl, rfl⟩ := pure_run_eq_ok h
        rw [hds]
        exact .step hne hall (Nat.pos_of_ne_zero hn) hle
          (ih lx₂ l₃ _ rest _ hpos (nextLexeme_sound (next_run_eq_ok.mp hnext)).1)
      · simp [unexpected_run] at h
    | _ => simp [elementPositions, unexpected_run] at h

theorem next_sound {l l' : PointerLexer} {lx : Lexeme} (h : next.run l = .ok (lx, l')) :
    Spells lx l.rest l'.rest :=
  (nextLexeme_sound (next_run_eq_ok.mp h)).1

theorem elementPayload_sound {l l' : PointerLexer} {o : Option Part}
    (h : elementPayload.run l = .ok (o, l')) : ElementPayload l.rest o l'.rest := by
  obtain ⟨l₀, l₁, hget, h₁⟩ := run_bind_eq_ok h
  obtain ⟨rfl, rfl⟩ := get_run_eq_ok hget
  obtain ⟨lx, l₂, hlx, h₂⟩ := run_bind_eq_ok h₁
  have hspells := next_sound hlx
  split at h₂
  · obtain ⟨rfl, rfl⟩ := pure_run_eq_ok h₂
    rw [Spells.punctuation_inv (c := ')') rfl hspells]
    exact .empty _
  · -- an ID, then child positions
    rename_i n b
    obtain ⟨hrest, hN, -, -⟩ := Spells.name_inv hspells
    obtain ⟨lx₂, l₃, hlx₂, h₃⟩ := run_bind_eq_ok h₂
    obtain ⟨ns, l₄, hpos, h₄⟩ := run_bind_eq_ok h₃
    obtain ⟨rfl, rfl⟩ := pure_run_eq_ok h₄
    rw [hrest]
    exact .named hN (elementPositions_sound _ _ _ _ _ _ hpos (next_sound hlx₂))
  · -- child positions from the document node
    obtain ⟨ns, l₃, hpos, h₃⟩ := run_bind_eq_ok h₂
    obtain ⟨rfl, rfl⟩ := pure_run_eq_ok h₃
    have hns := elementPositions_sound _ _ _ _ _ _ hpos hspells
    rw [Spells.punctuation_inv (c := '/') rfl hspells] at hns ⊢
    simpa [List.isEmpty_iff, hns.ne_nil_of_slash] using ElementPayload.children hns
  · simp [unexpected_run] at h₂

theorem xmlnsPayload_sound {l l' : PointerLexer} {p : Part} (h : xmlnsPayload.run l = .ok (p, l')) :
    XmlnsPayload l.rest p l'.rest := by
  obtain ⟨_, l₁, hskip₁, h₁⟩ := run_bind_eq_ok h
  obtain ⟨lx, l₂, hlx, h₂⟩ := run_bind_eq_ok h₁
  dsimp only at h₂
  -- the prefix is a name
  split at h₂
  · rename_i n b
    obtain ⟨pre, l₃, hpre, h₃⟩ := run_bind_eq_ok h₂
    obtain ⟨rfl, rfl⟩ := pure_run_eq_ok hpre
    obtain ⟨_, l₄, hskip₂, h₄⟩ := run_bind_eq_ok h₃
    obtain ⟨lx', l₅, hlx', h₅⟩ := run_bind_eq_ok h₄
    -- then `=`, blanks and the URI
    split at h₅
    · obtain ⟨_, l₆, hskip₃, h₆⟩ := run_bind_eq_ok h₅
      obtain ⟨uri, l₇, huri, h₇⟩ := run_bind_eq_ok h₆
      obtain ⟨rfl, rfl⟩ := pure_run_eq_ok h₇
      obtain ⟨hrest, hN, -, -⟩ := Spells.name_inv (next_sound hlx)
      have hequals := Spells.punctuation_inv (c := '=') rfl (next_sound hlx')
      obtain ⟨data, hdata, hbal, -⟩ := escapedData_eq_ok_iff.mp (escapedData_run_eq_ok.mp huri)
      have hb₁ := skipBlanks_sound hskip₁
      have hb₂ := skipBlanks_sound hskip₂
      have hb₃ := skipBlanks_sound hskip₃
      rw [hrest] at hb₁
      rw [hequals] at hb₂
      rw [hdata] at hb₃
      simpa using XmlnsPayload.mk hb₁ hN hb₂ hb₃ hbal
    · obtain ⟨_, _, hfail, -⟩ := run_bind_eq_ok h₅
      simp [unexpected_run] at hfail
  · obtain ⟨_, _, hfail, -⟩ := run_bind_eq_ok h₂
    simp [unexpected_run] at hfail

theorem expressionPayload_sound {l l' : PointerLexer} {o : Option String}
    (h : expressionPayload.run l = .ok (o, l')) :
    ∃ data v, l.rest = data ++ ')' :: l'.rest ∧ Balanced data v ∧
      o = if v.all Text.isUnicodeBlank then none else some (String.ofList v) := by
  obtain ⟨uri, l₁, huri, h₁⟩ := run_bind_eq_ok h
  obtain ⟨rfl, rfl⟩ := pure_run_eq_ok h₁
  obtain ⟨data, hdata, hbal, -⟩ := escapedData_eq_ok_iff.mp (escapedData_run_eq_ok.mp huri)
  refine ⟨data, uri.toList, hdata, hbal, ?_⟩
  rw [← Text.trimUnicode_isEmpty, String.ofList_toList]

theorem expressionPart_eq (make : String → Part) (v : List Char) :
    (if v.all Text.isUnicodeBlank then none else some (String.ofList v)).map make =
      expressionPart make v := by
  unfold expressionPart
  split <;> rfl

theorem payload_sound {s : Scheme} {l l' : PointerLexer} {o : Option Part}
    (h : (payload s).run l = .ok (o, l')) : SchemePayload s l.rest o l'.rest := by
  cases s with
  | element => exact .element (elementPayload_sound h)
  | xmlns =>
    obtain ⟨p, hp, rfl⟩ := map_run_eq_ok h
    exact .xmlns (xmlnsPayload_sound hp)
  | xpath1 =>
    obtain ⟨e, he, rfl⟩ := map_run_eq_ok h
    obtain ⟨data, v, hrest, hbal, rfl⟩ := expressionPayload_sound he
    rw [hrest, expressionPart_eq]
    exact .xpath1 hbal
  | xpointer =>
    obtain ⟨e, he, rfl⟩ := map_run_eq_ok h
    obtain ⟨data, v, hrest, hbal, rfl⟩ := expressionPayload_sound he
    rw [hrest, expressionPart_eq]
    exact .xpointer hbal
  | unknown =>
    obtain ⟨_, l₁, hskip, h₁⟩ := run_bind_eq_ok h
    obtain ⟨rfl, rfl⟩ := pure_run_eq_ok h₁
    obtain ⟨uri, huri, -⟩ := map_run_eq_ok hskip
    obtain ⟨data, hdata, hbal, -⟩ := escapedData_eq_ok_iff.mp (escapedData_run_eq_ok.mp huri)
    rw [hdata]
    exact .unknown hbal

theorem modify_run (f : PointerLexer → PointerLexer) (l : PointerLexer) :
    (modify f : PointerParser Unit).run l = .ok ((), f l) := rfl

theorem lookup_boundUri (parts : List Part) (p n : String) :
    (match boundUri parts p with
      | some uri => Scheme.lookup uri n
      | none => .unknown) = if boundUri parts p = some "" then .lookup "" n else .unknown := by
  rcases boundUri parts p with _ | uri
  · simp
  · by_cases hu : uri = ""
    · simp [hu]
    · simp [hu, Scheme.lookup]

/-- What the parser reads as scheme invocations, from the lexeme `lx` on, is a sequence of them;
`fuel` is more than the characters left, so it never runs out. -/
theorem schemeParts_sound : ∀ (fuel : Nat) (parts : List Part) (lx : Lexeme) (l l' : PointerLexer)
    (out : List Part) (t : List Char), (schemeParts fuel parts lx).run l = .ok (out, l') →
      Spells lx t l.rest → l.rest.length < fuel → SchemeParts parts t out := by
  intro fuel
  induction fuel with
  | zero => intro _ _ _ _ _ _ _ _ hfuel; omega
  | succ fuel ih =>
    intro parts lx l l' out t h hlx hfuel
    simp only [schemeParts] at h
    split at h
    · obtain ⟨rfl, rfl⟩ := pure_run_eq_ok h
      rw [(Spells.eof_inv hlx).1]
      exact .done _
    -- after the scheme name and `(`: the payload, blanks and the next lexeme
    have cont : ∀ scheme u, l.rest = '(' :: u → SchemeName parts t scheme u →
        (do
          modify fun l => l.nextChar.2
          let part ← payload scheme
          skipBlanks
          let lx' ← next
          schemeParts fuel (parts ++ part.toList) lx' : PointerParser (List Part)).run l =
          .ok (out, l') → SchemeParts parts t out := by
      intro scheme u hu hname h₁
      obtain ⟨_, l₂, hmod, h₂⟩ := run_bind_eq_ok h₁
      rw [modify_run, Except.ok.injEq, Prod.mk.injEq] at hmod
      obtain ⟨-, rfl⟩ := hmod
      obtain ⟨o, l₃, hpay, h₃⟩ := run_bind_eq_ok h₂
      obtain ⟨_, l₄, hskip, h₄⟩ := run_bind_eq_ok h₃
      obtain ⟨lx', l₅, hnext, h₅⟩ := run_bind_eq_ok h₄
      have hpayload := payload_sound hpay
      simp only [PointerLexer.nextChar, hu, PointerLexer.after] at hpayload
      have hblanks := skipBlanks_sound hskip
      have hspells := next_sound hnext
      have : l₅.rest.length < fuel := by
        have := hpayload.length_lt
        have := hblanks.length_le
        have := hspells.length_le
        rw [hu] at hfuel
        simp at hfuel
        omega
      exact .step hname hpayload hblanks (ih _ _ _ _ _ _ h₅ hspells this)
    -- the lexeme names a scheme, and `(` follows it
    split at h
    · rename_i n
      obtain ⟨scheme, l₁, hscheme, h₁⟩ := run_bind_eq_ok h
      obtain ⟨rfl, rfl⟩ := pure_run_eq_ok hscheme
      obtain ⟨rfl, hN, -, hparen⟩ := Spells.name_inv hlx
      obtain ⟨u, hu⟩ : ∃ u, l.rest = '(' :: u := by
        cases hr : l.rest with
        | nil => simp [hr] at hparen
        | cons c u => simp [hr] at hparen; exact ⟨u, by rw [hparen]⟩
      refine cont _ u hu ?_ h₁
      rw [hu]
      exact .plain hN
    · rename_i p n
      obtain ⟨scheme, l₁, hscheme, h₁⟩ := run_bind_eq_ok h
      obtain ⟨rfl, rfl⟩ := pure_run_eq_ok hscheme
      obtain ⟨rfl, hP, hN, -, hparen⟩ := Spells.qualifiedName_inv hlx
      obtain ⟨u, hu⟩ : ∃ u, l.rest = '(' :: u := by
        cases hr : l.rest with
        | nil => simp [hr] at hparen
        | cons c u => simp [hr] at hparen; exact ⟨u, by rw [hparen]⟩
      refine cont _ u hu ?_ h₁
      rw [hu]
      convert @SchemeName.prefixed parts _ _ u hP hN using 1
      exact lookup_boundUri parts _ _
    · obtain ⟨_, _, hfail, -⟩ := run_bind_eq_ok h
      simp [failHere_run] at hfail

/-! ## What the grammar derives, the parser reads -/

theorem next_complete {lx : Lexeme} {t r : List Char} (h : Spells lx t r) (off : Nat) :
    ∃ off', next.run ⟨t, off⟩ = .ok (lx, ⟨r, off'⟩) :=
  ⟨_, next_run_eq_ok.mpr (nextLexeme_complete h off)⟩

theorem skipBlanks_complete {t r : List Char} (h : SkipsBlanks t r) (off : Nat) :
    ∃ off', skipBlanks.run ⟨t, off⟩ = .ok ((), ⟨r, off'⟩) := by
  obtain ⟨bs, rfl, hall, hhead⟩ := h
  have hdrop : (bs ++ r).dropWhile Text.isXmlBlank = r := by
    rw [List.dropWhile_append_of_pos hall]
    cases r with
    | nil => rfl
    | cons c r => simp [hhead c rfl]
  refine ⟨off + ((bs ++ r).takeWhile Text.isXmlBlank).length, ?_⟩
  rw [skipBlanks_run, skipBlanks_eq]
  simp only [hdrop]

theorem escapedData_complete {data v r : List Char} (h : Balanced data v) (off : Nat) :
    ∃ off', escapedData.run ⟨data ++ ')' :: r, off⟩ = .ok (String.ofList v, ⟨r, off'⟩) :=
  ⟨_, escapedData_run_eq_ok.mpr (escapedData_eq_ok_iff.mpr ⟨data, rfl, by simpa using h, rfl⟩)⟩

theorem elementPositions_complete {t : List Char} {ns : List Nat} {r : List Char}
    (h : Positions t ns r) : ∀ fuel, ns.length < fuel → ∀ lx t', Spells lx t t' → ∀ off,
      ∃ off', (elementPositions fuel lx).run ⟨t', off⟩ = .ok (ns, ⟨r, off'⟩) := by
  induction h with
  | close r =>
    intro fuel hfuel lx t' hlx off
    obtain ⟨rfl, rfl⟩ := (Spells.punctuation r rfl).unique hlx
    obtain ⟨f, rfl⟩ : ∃ f, fuel = f + 1 := ⟨fuel - 1, by simp at hfuel; omega⟩
    exact ⟨off, rfl⟩
  | @step ds t ns r hne hall hpos hle hrest ih =>
    intro fuel hfuel lx t' hlx off
    obtain ⟨rfl, rfl⟩ := (Spells.punctuation (ds ++ t) rfl).unique hlx
    obtain ⟨f, rfl⟩ : ∃ f, fuel = f + 1 := ⟨fuel - 1, by simp at hfuel; omega⟩
    obtain ⟨k, hk⟩ : ∃ k, digitsValue ds = k + 1 := ⟨digitsValue ds - 1, by omega⟩
    -- the position's digits end where the next `/` or `)` starts
    obtain ⟨c, t₀, lx₂, rfl, hlx₂, hdigit, -⟩ := hrest.spells_head
    have hnum : Spells (.number (k + 1)) (ds ++ c :: t₀) (c :: t₀) := by
      rw [← hk]
      exact .number hne hall hle (by simpa using hdigit)
    obtain ⟨off₁, hnext₁⟩ := next_complete hnum off
    obtain ⟨off₂, hnext₂⟩ := next_complete hlx₂ off₁
    obtain ⟨off₃, hrun⟩ := ih f (by simp at hfuel; omega) lx₂ t₀ hlx₂ off₂
    refine ⟨off₃, ?_⟩
    simp only [elementPositions, StateT.run_bind, StateT.run_get, pure_bind, hnext₁, ok_bind]
    simp only [hnext₂, ok_bind, hrun, hk]
    rfl

theorem elementPayload_complete {t : List Char} {o : Option Part} {r : List Char}
    (h : ElementPayload t o r) (off : Nat) :
    ∃ off', elementPayload.run ⟨t, off⟩ = .ok (o, ⟨r, off'⟩) := by
  cases h with
  | empty r =>
    obtain ⟨off₁, hn⟩ := next_complete (Spells.punctuation (c := ')') r rfl) off
    refine ⟨off₁, ?_⟩
    simp only [elementPayload, StateT.run_bind, StateT.run_get, pure_bind, hn, ok_bind]
    rfl
  | @named n t ns r hN hp =>
    obtain ⟨c, t₀, lx, rfl, hlx, -, hname, hcolon, hparen⟩ := hp.spells_head
    have hn : Spells (.name n false) (n.toList ++ c :: t₀) (c :: t₀) := by
      have := Spells.name (r := c :: t₀) hN (by simpa using ⟨hname, hcolon⟩)
      simpa [beq_false_of_ne hparen] using this
    obtain ⟨off₁, hnext₁⟩ := next_complete hn off
    obtain ⟨off₂, hnext₂⟩ := next_complete hlx off₁
    obtain ⟨off₃, hrun⟩ := elementPositions_complete hp ((n.toList ++ c :: t₀).length + 1)
      (by have := hp.count_lt_length; simp only [List.length_append]; omega) lx t₀ hlx off₂
    refine ⟨off₃, ?_⟩
    simp only [elementPayload, StateT.run_bind, StateT.run_get, pure_bind, hnext₁, ok_bind]
    simp only [hnext₂, ok_bind, hrun]
    rfl
  | @children t ns r hp =>
    obtain ⟨off₁, hnext⟩ := next_complete (Spells.punctuation (c := '/') t rfl) off
    obtain ⟨off₂, hrun⟩ := elementPositions_complete hp (('/' :: t).length + 1)
      (by have := hp.count_lt_length; omega) .slash t (.punctuation t rfl) off₁
    refine ⟨off₂, ?_⟩
    simp only [elementPayload, StateT.run_bind, StateT.run_get, pure_bind, hnext, ok_bind]
    simp only [hrun, ok_bind, List.isEmpty_iff, hp.ne_nil_of_slash, if_false]
    rfl

theorem xmlnsPayload_complete {t : List Char} {p : Part} {r : List Char} (h : XmlnsPayload t p r)
    (off : Nat) : ∃ off', xmlnsPayload.run ⟨t, off⟩ = .ok (p, ⟨r, off'⟩) := by
  cases h with | @mk u w data v _ pre h₁ hN h₂ h₃ hb =>
  obtain ⟨off₁, hs₁⟩ := skipBlanks_complete h₁ off
  obtain ⟨off₂, hn₁⟩ := next_complete (.name hN (h₂.head_ends_name (by decide) (by decide))) off₁
  obtain ⟨off₃, hs₂⟩ := skipBlanks_complete h₂ off₂
  obtain ⟨off₄, hn₂⟩ := next_complete (Spells.punctuation (c := '=') w rfl) off₃
  obtain ⟨off₅, hs₃⟩ := skipBlanks_complete h₃ off₄
  obtain ⟨off₆, he⟩ := escapedData_complete (r := r) hb off₅
  refine ⟨off₆, ?_⟩
  simp only [xmlnsPayload, StateT.run_bind, hs₁, ok_bind, hn₁, StateT.run_pure, pure_bind, hs₂, hn₂,
    hs₃, he]
  rfl

theorem expressionPayload_complete {data v : List Char} (r : List Char) (h : Balanced data v)
    (off : Nat) : ∃ off', expressionPayload.run ⟨data ++ ')' :: r, off⟩ =
      .ok (if v.all Text.isUnicodeBlank then none else some (String.ofList v), ⟨r, off'⟩) := by
  obtain ⟨off', he⟩ := escapedData_complete (r := r) h off
  refine ⟨off', ?_⟩
  simp only [expressionPayload, StateT.run_bind, he, ok_bind, StateT.run_pure, Text.trimUnicode_isEmpty]
  rfl

theorem discard_run_eq {α : Type} {x : PointerParser α} {l l' : PointerLexer} {a : α}
    (h : x.run l = .ok (a, l')) : (discard x).run l = .ok ((), l') := by
  show (Function.const α () <$> x).run l = _
  rw [StateT.run_map, h]
  rfl

theorem payload_complete {s : Scheme} {t : List Char} {o : Option Part} {r : List Char}
    (h : SchemePayload s t o r) (off : Nat) :
    ∃ off', (payload s).run ⟨t, off⟩ = .ok (o, ⟨r, off'⟩) := by
  cases h with
  | element h => exact elementPayload_complete h off
  | xmlns h =>
    obtain ⟨off', hx⟩ := xmlnsPayload_complete h off
    exact ⟨off', by simp only [payload, StateT.run_map, hx]; rfl⟩
  | @xpath1 data v r h =>
    obtain ⟨off', he⟩ := expressionPayload_complete r h off
    refine ⟨off', ?_⟩
    simp only [payload, StateT.run_map, he, ← expressionPart_eq]
    rfl
  | @xpointer data v r h =>
    obtain ⟨off', he⟩ := expressionPayload_complete r h off
    refine ⟨off', ?_⟩
    simp only [payload, StateT.run_map, he, ← expressionPart_eq]
    rfl
  | @unknown data v r h =>
    obtain ⟨off', he⟩ := escapedData_complete (r := r) h off
    refine ⟨off', ?_⟩
    simp only [payload, StateT.run_bind, discard_run_eq he, ok_bind]
    rfl

/-- Scheme invocations are read to the end of the text, with fuel for more than the
characters left. -/
theorem schemeParts_complete {parts : List Part} {t : List Char} {out : List Part}
    (h : SchemeParts parts t out) : ∀ fuel, t.length < fuel → ∀ lx t', Spells lx t t' → ∀ off,
      ∃ off', (schemeParts fuel parts lx).run ⟨t', off⟩ = .ok (out, ⟨[], off'⟩) := by
  induction h with
  | done parts =>
    intro fuel hfuel lx t' hlx off
    obtain ⟨rfl, rfl⟩ := hlx.nil_inv
    obtain ⟨f, rfl⟩ : ∃ f, fuel = f + 1 := ⟨fuel - 1, by simp at hfuel; omega⟩
    exact ⟨off, rfl⟩
  | @step parts t u w w' s o out hname hpay hblank hrest ih =>
    intro fuel hfuel lx t' hlx off
    obtain ⟨f, rfl⟩ : ∃ f, fuel = f + 1 := ⟨fuel - 1, by have := hname.length_lt; omega⟩
    -- after the scheme name and `(`: the payload, blanks and the next invocation
    have cont : ∀ s', s' = s → ∃ off', (do
          modify fun l => l.nextChar.2
          let part ← payload s'
          skipBlanks
          let lx' ← next
          schemeParts f (parts ++ part.toList) lx' : PointerParser (List Part)).run
          ⟨'(' :: u, off⟩ = .ok (out, ⟨[], off'⟩) := by
      rintro _ rfl
      obtain ⟨off₁, hp⟩ := payload_complete hpay (off + 1)
      obtain ⟨off₂, hs⟩ := skipBlanks_complete hblank off₁
      obtain ⟨lx', w'', hlx'⟩ := hrest.spells_first
      obtain ⟨off₃, hn⟩ := next_complete hlx' off₂
      have hlen : w'.length < f := by
        have := hname.length_lt
        have := hpay.length_lt
        have := hblank.length_le
        omega
      obtain ⟨off₄, hrun⟩ := ih f hlen lx' w'' hlx' off₃
      refine ⟨off₄, ?_⟩
      simp only [StateT.run_bind, modify_run, ok_bind, PointerLexer.nextChar, PointerLexer.after, hp,
        hs, hn, hrun]
    cases hname with
    | @plain n _ hN =>
      obtain ⟨rfl, rfl⟩ := (Spells.schemeName u hN).unique hlx
      simpa only [schemeParts, StateT.run_bind, StateT.run_pure, pure_bind] using cont _ rfl
    | @prefixed p n _ hP hN =>
      obtain ⟨rfl, rfl⟩ := (Spells.qualifiedSchemeName u hP hN).unique hlx
      simp only [schemeParts, StateT.run_bind, pure_bind]
      exact cont _ (lookup_boundUri parts p n)

end PointerParser

end XmlPointer
