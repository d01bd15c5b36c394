import Mathlib
import XmlPointer.Proofs.PointerParse

/-! # Writing pointer parts and reading them back

A part is written as its scheme name, unprefixed, and its payload with `^`, `(` and `)`
escaped. Escaping gives balanced data whose value is the payload, so a written part is a
scheme invocation in the sense of `SchemeParts`, as long as the part is well formed: the
invariants that parsing establishes, and no more. Parts written one after another, with blanks
or nothing between them, therefore parse back to the same parts. -/

namespace XmlPointer

open PointerLexer

/-- What parsing establishes of a part: an `element()` part names an NCName or nothing, its
positions run from 1 to the limit and it has a name or a position; an `xmlns()` prefix is an
NCName and its URI does not start with a blank; an expression is not blank. -/
def Part.wellFormed : Part → Bool
  | .element name ps =>
    name.all Text.isNCName && ps.all (fun n => 1 ≤ n && n ≤ numberLimit) && (name.isSome || !ps.isEmpty)
  | .xmlns pre uri => Text.isNCName pre && !(uri.toList.head?.any Text.isXmlBlank)
  | .xpath1 e | .xpointer e => !(e.toList.all Text.isUnicodeBlank)

def Part.displayWith (items : List (Part × String)) : String :=
  String.join (items.map fun x => x.1.display ++ x.2)

theorem balanced_escapeChar (c : Char) :
    Balanced (if c = '^' || c = '(' || c = ')' then "^" ++ c.toString else c.toString).toList [c] := by
  split
  · rename_i hc
    simpa using Balanced.escape (by simpa [or_assoc] using hc) .nil
  · rename_i hc
    simp only [Bool.or_eq_true, decide_eq_true_eq, not_or] at hc
    simpa using Balanced.plain hc.1.1 hc.1.2 hc.2 .nil

theorem balanced_escapePayload (s : String) : Balanced (escapePayload s).toList s.toList := by
  unfold escapePayload
  induction s.toList with
  | nil => exact .nil
  | cons c cs ih =>
    simpa [String.join_cons] using (balanced_escapeChar c).append ih

theorem PointerLexer.escapedData_escapePayload (s : String) (r : List Char) (off : Nat) :
    escapedData ⟨(escapePayload s).toList ++ ')' :: r, off⟩ =
      (.ok s, ⟨r, off + (escapePayload s).length + 1⟩) := by
  simp only [escapedData, escapedFrom_balanced (balanced_escapePayload s), String.length_toList]
  simp [Except.map]

theorem positions_slashPositions {ns : List Nat} (hns : ∀ n ∈ ns, 1 ≤ n ∧ n ≤ numberLimit)
    (r : List Char) : Positions ((PointerParser.slashPositions ns).toList ++ ')' :: r) ns r := by
  induction ns with
  | nil => exact .close r
  | cons n ns ih =>
    have hval : digitsValue (Nat.toDigits 10 n) = n := foldl_toDigits n
    have hn := hns n (List.mem_cons_self ..)
    have h := Positions.step Nat.toDigits_ne_nil (fun _ => isDigit_of_mem_toDigits)
      (by rw [hval]; exact hn.1) (by rw [hval]; exact hn.2)
      (ih fun m hm => hns m (List.mem_cons_of_mem _ hm))
    rw [hval] at h
    simpa [PointerParser.slashPositions_cons] using h

theorem SkipsBlanks.of_head {t : List Char} (h : ∀ c ∈ t.head?, Text.isXmlBlank c = false) :
    SkipsBlanks t t :=
  ⟨[], rfl, by simp, h⟩

theorem escapePayload_head {u : String} (hu : ∀ c ∈ u.toList.head?, Text.isXmlBlank c = false)
    (r : List Char) : ∀ c ∈ ((escapePayload u).toList ++ ')' :: r).head?, Text.isXmlBlank c = false := by
  unfold escapePayload
  cases h : u.toList with
  | nil => simp [Text.isXmlBlank]
  | cons c cs =>
    have hc : Text.isXmlBlank c = false := hu c (by simp [h])
    simp only [List.map_cons, String.join_cons, String.toList_append, List.append_assoc]
    split <;> simp_all [Text.isXmlBlank]

theorem elementPayload_display {name : Option String} {ps : List Nat}
    (hwf : (Part.element name ps).wellFormed = true) (r : List Char) :
    SchemePayload .element ((Part.elementPayload name ps).toList ++ ')' :: r)
      (some (.element name ps)) r := by
  simp only [Part.wellFormed, Bool.and_eq_true, Bool.or_eq_true, Option.all_eq_true, List.all_eq_true,
    decide_eq_true_eq, Bool.not_eq_true', List.isEmpty_eq_false_iff] at hwf
  obtain ⟨⟨hname, hps⟩, hsome⟩ := hwf
  have hpos := positions_slashPositions hps r
  -- the payload is the name, if any, and then the positions
  have htext : (Part.elementPayload name ps).toList =
      (name.getD "").toList ++ (PointerParser.slashPositions ps).toList := by
    simp [Part.elementPayload, PointerParser.slashPositions]
  rw [htext]
  cases name with
  | none =>
    cases ps with
    | nil => simp at hsome
    | cons n ns =>
      rw [PointerParser.slashPositions_cons] at hpos ⊢
      exact .element (.children hpos)
  | some n =>
    simpa using SchemePayload.element (ElementPayload.named (hname n rfl) hpos)

theorem xmlnsPayload_display {pre uri : String} (hwf : (Part.xmlns pre uri).wellFormed = true)
    (r : List Char) :
    SchemePayload .xmlns ((pre ++ "=" ++ escapePayload uri).toList ++ ')' :: r)
      (some (.xmlns pre uri)) r := by
  simp only [Part.wellFormed, Bool.and_eq_true, Bool.not_eq_true', Option.any_eq_false] at hwf
  obtain ⟨hP, huri⟩ := hwf
  obtain ⟨x, xs, hx, hstart, -⟩ := Text.isNCName_toList hP
  -- no blanks anywhere: the prefix starts with a name character, then `=`, then the URI
  have h₁ : SkipsBlanks (pre.toList ++ '=' :: ((escapePayload uri).toList ++ ')' :: r))
      (pre.toList ++ '=' :: ((escapePayload uri).toList ++ ')' :: r)) :=
    .of_head (by rw [hx]; simpa using Text.isXmlBlank_eq_false (by decide) hstart)
  have h₂ : SkipsBlanks ('=' :: ((escapePayload uri).toList ++ ')' :: r))
      ('=' :: ((escapePayload uri).toList ++ ')' :: r)) :=
    .of_head (by simp [Text.isXmlBlank])
  have h₃ := SkipsBlanks.of_head (escapePayload_head (fun c hc => huri c hc) r)
  simpa using SchemePayload.xmlns (XmlnsPayload.mk h₁ hP h₂ h₃ (balanced_escapePayload uri))

theorem xpath1Payload_display {e : String} (hwf : (Part.xpath1 e).wellFormed = true) (r : List Char) :
    SchemePayload .xpath1 ((escapePayload e).toList ++ ')' :: r) (some (.xpath1 e)) r := by
  have h := SchemePayload.xpath1 (r := r) (balanced_escapePayload e)
  rwa [expressionPart, if_neg (by simpa [Part.wellFormed] using hwf), String.ofList_toList] at h

theorem xpointerPayload_display {e : String} (hwf : (Part.xpointer e).wellFormed = true)
    (r : List Char) :
    SchemePayload .xpointer ((escapePayload e).toList ++ ')' :: r) (some (.xpointer e)) r := by
  have h := SchemePayload.xpointer (r := r) (balanced_escapePayload e)
  rwa [expressionPart, if_neg (by simpa [Part.wellFormed] using hwf), String.ofList_toList] at h

open PointerParser in
theorem SchemeParts.invocation {parts out : List Part} {n : String} {s : Scheme} {payload : List Char}
    {p : Part} {g r : List Char} (hN : Text.isNCName n = true) (hs : Scheme.lookup "" n = s)
    (hpay : SchemePayload s (payload ++ ')' :: (g ++ r)) (some p) (g ++ r))
    (hg : ∀ c ∈ g, Text.isXmlBlank c = true) (hr : ∀ c ∈ r.head?, Text.isXmlBlank c = false)
    (h : SchemeParts (parts ++ [p]) r out) :
    SchemeParts parts (n.toList ++ '(' :: (payload ++ ')' :: (g ++ r))) out :=
  .step (hs ▸ .plain hN) hpay ⟨g, rfl, hg, hr⟩ h

theorem SchemeParts.display_cons {parts out : List Part} {p : Part} {g : String} {r : List Char}
    (hwf : p.wellFormed = true) (hg : ∀ c ∈ g.toList, Text.isXmlBlank c = true)
    (hr : ∀ c ∈ r.head?, Text.isXmlBlank c = false) (h : SchemeParts (parts ++ [p]) r out) :
    SchemeParts parts ((p.display ++ g).toList ++ r) out := by
  cases p with
  | element name ps =>
    simpa [Part.display] using
      SchemeParts.invocation (n := "element") (by decide) rfl (elementPayload_display hwf _) hg hr h
  | xmlns pre uri =>
    simpa [Part.display] using
      SchemeParts.invocation (n := "xmlns") (by decide) rfl (xmlnsPayload_display hwf _) hg hr h
  | xpath1 e =>
    simpa [Part.display] using
      SchemeParts.invocation (n := "xpath1") (by decide) rfl (xpath1Payload_display hwf _) hg hr h
  | xpointer e =>
    simpa [Part.display] using
      SchemeParts.invocation (n := "xpointer") (by decide) rfl (xpointerPayload_display hwf _) hg hr h

theorem Part.displayWith_head (items : List (Part × String)) :
    ∀ c ∈ (Part.displayWith items).toList.head?, Text.isXmlBlank c = false := by
  cases items with
  | nil => simp [Part.displayWith]
  | cons x items =>
    obtain ⟨p, g⟩ := x
    cases p <;> simp [Part.displayWith, Part.display, Text.isXmlBlank]

theorem Part.displayWith_ne_empty {items : List (Part × String)} (hne : items ≠ []) :
    Part.displayWith items ≠ "" := by
  cases items with
  | nil => exact absurd rfl hne
  | cons x items =>
    obtain ⟨p, g⟩ := x
    cases p <;> simp [Part.displayWith, Part.display]

theorem schemeParts_displayWith (items : List (Part × String))
    (hwf : ∀ x ∈ items, x.1.wellFormed = true ∧ ∀ c ∈ x.2.toList, Text.isXmlBlank c = true) :
    ∀ parts, SchemeParts parts (Part.displayWith items).toList (parts ++ items.map Prod.fst) := by
  induction items with
  | nil =>
    intro parts
    simpa [Part.displayWith] using SchemeParts.done parts
  | cons x items ih =>
    intro parts
    have hx := hwf x (List.mem_cons_self ..)
    have hrest := ih (fun y hy => hwf y (List.mem_cons_of_mem _ hy)) (parts ++ [x.1])
    simpa [Part.displayWith] using
      SchemeParts.display_cons hx.1 hx.2 (Part.displayWith_head items) hrest

theorem Pointer.parse_displayWith {items : List (Part × String)} (hne : items ≠ [])
    (hwf : ∀ x ∈ items, x.1.wellFormed = true ∧ ∀ c ∈ x.2.toList, Text.isXmlBlank c = true) :
    Pointer.parse (Part.displayWith items) =
      .ok (.schemeBased (items.map Prod.fst) (Part.displayWith items)) :=
  (Pointer.parse_eq_schemeBased_iff _ _ _).mpr
    ⟨rfl, Part.displayWith_ne_empty hne, by simpa using schemeParts_displayWith items hwf []⟩

/-! ## The parts that parsing gives are well formed -/

theorem Positions.bounds {t : List Char} {ns : List Nat} {r : List Char} (h : Positions t ns r) :
    ∀ n ∈ ns, 1 ≤ n ∧ n ≤ numberLimit := by
  induction h with
  | close => simp
  | step _ _ hpos hle _ ih =>
    intro n hn
    rcases List.mem_cons.mp hn with rfl | hn
    · exact ⟨hpos, hle⟩
    · exact ih n hn

theorem ElementPayload.wellFormed {t : List Char} {o : Option Part} {r : List Char}
    (h : ElementPayload t o r) : ∀ p ∈ o, p.wellFormed = true := by
  cases h with
  | empty => simp
  | named hN hp => simpa [Part.wellFormed, hN] using hp.bounds
  | children hp =>
    simpa [Part.wellFormed, hp.ne_nil_of_slash] using hp.bounds

theorem Balanced.head_of_blank {data v : List Char} (h : Balanced data v) :
    ∀ c ∈ v.head?, Text.isXmlBlank c = true → data.head? = some c := by
  cases h with
  | nil => simp
  | escape hc =>
    intro c' hc' hblank
    simp only [List.head?_cons, Option.mem_def, Option.some.injEq] at hc'
    subst hc'
    rcases hc with rfl | rfl | rfl <;> simp [Text.isXmlBlank] at hblank
  | plain => simp
  | group => simp [Text.isXmlBlank]

theorem XmlnsPayload.wellFormed {t : List Char} {p : Part} {r : List Char} (h : XmlnsPayload t p r) :
    p.wellFormed = true := by
  cases h with
  | @mk _ _ data v _ _ _ hP _ h₃ hb =>
    obtain ⟨bs, hw, -, hhead⟩ := h₃
    simp only [Part.wellFormed, hP, Bool.true_and, Bool.not_eq_true', Option.any_eq_false,
      String.toList_ofList]
    intro c hc
    by_contra hblank
    have hdata := hb.head_of_blank c hc (by simpa using hblank)
    cases data with
    | nil => simp at hdata
    | cons d ds =>
      simp only [List.head?_cons, Option.some.injEq] at hdata
      subst hdata
      simp [hhead d (by simp)] at hblank

theorem SchemePayload.wellFormed {s : PointerParser.Scheme} {t : List Char} {o : Option Part}
    {r : List Char} (h : SchemePayload s t o r) : ∀ p ∈ o, p.wellFormed = true := by
  cases h with
  | element h => exact h.wellFormed
  | xmlns h => simpa using h.wellFormed
  | xpath1 | xpointer =>
    intro p hp
    unfold expressionPart at hp
    split at hp
    · simp at hp
    · rename_i hblank
      simp only [Option.mem_def, Option.some.injEq] at hp
      subst hp
      simpa [Part.wellFormed] using hblank
  | unknown => simp

theorem SchemeParts.wellFormed {parts : List Part} {t : List Char} {out : List Part}
    (h : SchemeParts parts t out) (hparts : ∀ p ∈ parts, p.wellFormed = true) :
    ∀ p ∈ out, p.wellFormed = true := by
  induction h with
  | done => exact hparts
  | step _ hpay _ _ ih =>
    refine ih fun p hp => ?_
    rcases List.mem_append.mp hp with hp | hp
    · exact hparts p hp
    · exact hpay.wellFormed p (by simpa using hp)

theorem Pointer.parse_parts_wellFormed {text text' : String} {parts : List Part}
    (h : Pointer.parse text = .ok (.schemeBased parts text')) : ∀ p ∈ parts, p.wellFormed = true := by
  obtain ⟨-, -, hps⟩ := (Pointer.parse_eq_schemeBased_iff _ _ _).mp h
  exact hps.wellFormed (by simp)

/-- Writing parts and reading them back. Escaped data is read back as the string it escapes,
and the lexer stops right after the `)` that ends it; well-formed parts written with blank gaps
parse to those parts; and the parts of any parsed scheme-based pointer, written with any blank
gaps, parse to the same parts. -/
theorem Pointer.parse_display_roundtrip :
    (∀ (s : String) (r : List Char) (off : Nat),
      PointerLexer.escapedData ⟨(escapePayload s).toList ++ ')' :: r, off⟩ =
        (.ok s, ⟨r, off + (escapePayload s).length + 1⟩)) ∧
    (∀ items : List (Part × String), items ≠ [] →
      (∀ x ∈ items, x.1.wellFormed = true ∧ ∀ c ∈ x.2.toList, Text.isXmlBlank c = true) →
      Pointer.parse (Part.displayWith items) =
        .ok (.schemeBased (items.map Prod.fst) (Part.displayWith items))) ∧
    (∀ (text text' : String) (parts : List Part),
      Pointer.parse text = .ok (.schemeBased parts text') → parts ≠ [] →
      ∀ items : List (Part × String), items.map Prod.fst = parts →
        (∀ x ∈ items, ∀ c ∈ x.2.toList, Text.isXmlBlank c = true) →
        Pointer.parse (Part.displayWith items) = .ok (.schemeBased parts (Part.displayWith items))) := by
  refine ⟨PointerLexer.escapedData_escapePayload, fun _ hne hwf => Pointer.parse_displayWith hne hwf, ?_⟩
  rintro text text' parts h hne items rfl hgaps
  have hwf := Pointer.parse_parts_wellFormed h
  have hitems : items ≠ [] := by
    rintro rfl
    exact hne rfl
  exact Pointer.parse_displayWith hitems fun x hx => ⟨hwf x.1 (List.mem_map_of_mem hx), hgaps x hx⟩

/-- A part read through a prefix bound to the empty namespace is written back unprefixed, and
reads back the same. -/
theorem Pointer.parse_display_prefixed_xpath :
    Pointer.parse "xmlns(p=) p:xpath1(f(x))" =
      .ok (.schemeBased [.xmlns "p" "", .xpath1 "f(x)"] "xmlns(p=) p:xpath1(f(x))") ∧
    Pointer.parse (Part.displayWith [(.xmlns "p" "", " "), (.xpath1 "f(x)", "")]) =
      .ok (.schemeBased [.xmlns "p" "", .xpath1 "f(x)"]
        (Part.displayWith [(.xmlns "p" "", " "), (.xpath1 "f(x)", "")])) := by
  have h : Pointer.parse "xmlns(p=) p:xpath1(f(x))" =
      .ok (.schemeBased [.xmlns "p" "", .xpath1 "f(x)"] "xmlns(p=) p:xpath1(f(x))") := by
    decide +kernel
  exact ⟨h, Pointer.parse_display_roundtrip.2.2 _ _ _ h (by simp) _ rfl (by simp [Text.isXmlBlank])⟩

end XmlPointer
