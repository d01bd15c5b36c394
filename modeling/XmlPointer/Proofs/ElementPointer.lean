import XmlPointer.Proofs.ElementPaths

/-! # Resolving `element()` and shorthand pointers

The pointer `element(X/n₁/…/nₖ)`, for an NCName `X` and positions from 1 to the lexer's limit,
reads as one `element()` part: the scheme name is one lexeme, the name and each position are
lexemes of the payload (the digits of a position scan back to it), and the text ends after the
closing bracket. Its part evaluates the expression `id('X')/*[n₁]/…/*[nₖ]`, which selects the
node that `childPath` reaches from the element with the ID. So the pointer selects that one
node, or fails naming its text when there is none; `element(/n₁/…/nₖ)` walks from the document
node the same way, and the shorthand pointer `X` selects the element with the ID. Nothing in the
result depends on the context node. -/
namespace XmlPointer

theorem Text.isDigit_of_isNameStart {c : Char} (hc : Text.isNameStart c = true) : c.isDigit = false := by
  rw [Bool.eq_false_iff]
  intro h
  have hd := Char.isDigit_iff_toNat.mp h
  simp only [Text.isNameStart, Text.inRange] at hc
  simp at hc hd
  omega

namespace PointerLexer

theorem name?_name {X : String} (hX : Text.isNCName X = true) (rest : List Char)
    (hrest : ∀ y ys, rest = y :: ys → Text.isNameChar y = false) (off : Nat) :
    name? ⟨X.toList ++ rest, off⟩ = (some X, ⟨rest, off + X.length⟩) := by
  obtain ⟨x, xs, hx, hs, hxs⟩ := Text.isNCName_toList hX
  have hspan : (xs ++ rest).span Text.isNameChar = (xs, rest) := span_append_of_all hxs hrest
  have hlen : X.length = 1 + xs.length := by
    rw [← String.length_toList, hx, List.length_cons, Nat.add_comm]
  simp only [hx, List.cons_append, name?, hs, if_true, hspan, after, hlen]
  rw [← hx, String.ofList_toList]

theorem nameLexeme_name {X : String} (hX : Text.isNCName X = true) (rest : List Char)
    (hrest : ∀ y ys, rest = y :: ys → Text.isNameChar y = false) (hcolon : rest.head? ≠ some ':')
    (off : Nat) :
    nameLexeme ⟨X.toList ++ rest, off⟩ =
      (.ok (.name X (rest.head? == some '(')), ⟨rest, off + X.length⟩) := by
  simp only [nameLexeme, name?_name hX rest hrest]
  split
  · exact absurd rfl hcolon
  · rfl

theorem punctuation_eq_none {p : Char → Bool}
    (hp : ['(', ')', '^', '=', '/'].all (fun b => !p b) = true) {c : Char} (hc : p c = true) :
    punctuation c = none := by
  unfold punctuation
  split <;> first | rfl | simp [hc] at hp

theorem nextLexeme_name {X : String} (hX : Text.isNCName X = true) (rest : List Char)
    (hrest : ∀ y ys, rest = y :: ys → Text.isNameChar y = false) (hcolon : rest.head? ≠ some ':')
    (off : Nat) :
    nextLexeme ⟨X.toList ++ rest, off⟩ =
      (.ok (.name X (rest.head? == some '(')), ⟨rest, off + X.length⟩) := by
  obtain ⟨x, xs, hx, hs, -⟩ := Text.isNCName_toList hX
  have hname := nameLexeme_name hX rest hrest hcolon off
  rw [hx] at hname ⊢
  simp only [List.cons_append, nextLexeme, punctuation_eq_none (by decide) hs,
    Text.isXmlBlank_eq_false (by decide) hs, Text.isDigit_of_isNameStart hs, hs, Bool.false_eq_true, ↓reduceIte]
  exact hname

theorem le_foldl_digits (ds : List Char) (v : Nat) :
    v ≤ ds.foldl (fun acc c => acc * 10 + (c.toNat - '0'.toNat)) v := by
  induction ds generalizing v with
  | nil => exact Nat.le_refl v
  | cons d ds ih =>
    rw [List.foldl_cons]
    exact Nat.le_trans (by omega) (ih _)

theorem numberFrom_digits (start : Nat) {ds r : List Char} (hds : ∀ d ∈ ds, d.isDigit = true)
    (hr : ∀ c ∈ r.head?, c.isDigit = false) : ∀ value at_,
    ds.foldl (fun acc c => acc * 10 + (c.toNat - '0'.toNat)) value ≤ numberLimit →
      numberFrom start value at_ (ds ++ r) =
        (.ok (ds.foldl (fun acc c => acc * 10 + (c.toNat - '0'.toNat)) value), ⟨r, at_ + ds.length⟩) := by
  induction ds with
  | nil =>
    intro value at_ _
    cases r with
    | nil => rfl
    | cons c r => simp [numberFrom, hr c rfl]
  | cons d ds ih =>
    intro value at_ hv
    have hd := hds d (List.mem_cons_self ..)
    have hle := le_foldl_digits ds (value * 10 + (d.toNat - '0'.toNat))
    rw [List.foldl_cons] at hv ⊢
    simp only [List.cons_append, numberFrom, hd, if_true]
    rw [if_neg (by omega), ih (fun x hx => hds x (List.mem_cons_of_mem _ hx)) _ _ hv]
    simp only [List.length_cons]
    rw [Nat.add_assoc, Nat.add_comm 1]

theorem nextLexeme_number {n : Nat} (hn : n ≤ numberLimit) {c : Char} (hc : c.isDigit = false)
    (rest : List Char) (off : Nat) :
    nextLexeme ⟨Nat.toDigits 10 n ++ c :: rest, off⟩ =
      (.ok (.number n), ⟨c :: rest, off + (Nat.toDigits 10 n).length⟩) := by
  obtain ⟨d, ds, hds⟩ := List.exists_cons_of_ne_nil (Nat.toDigits_ne_nil (n := n) (b := 10))
  have hdigits := numberFrom_digits off (r := c :: rest)
    (fun x (hx : x ∈ Nat.toDigits 10 n) => isDigit_of_mem_toDigits hx) (by simpa using hc) 0 off
    (by rw [foldl_toDigits]; exact hn)
  rw [foldl_toDigits] at hdigits
  have hd : d.isDigit = true := isDigit_of_mem_toDigits (by rw [hds]; exact List.mem_cons_self ..)
  rw [hds, List.cons_append] at hdigits ⊢
  simp only [nextLexeme, punctuation_eq_none (by decide) hd, Text.isXmlBlank_eq_false (by decide) hd, hd,
    Bool.false_eq_true, ↓reduceIte]
  rw [hdigits]
  rfl

end PointerLexer

namespace PointerParser

open PointerLexer

theorem next_run {l l' : PointerLexer} {a : Lexeme} (h : nextLexeme l = (.ok a, l')) :
    next.run l = .ok (a, l') := by
  simp only [next, lift, StateT.run, h]

def slashPositions (ns : List Nat) : String :=
  String.join (ns.map fun p => "/" ++ toString p)

theorem slashPositions_cons (n : Nat) (ns : List Nat) :
    (slashPositions (n :: ns)).toList = '/' :: (Nat.toDigits 10 n ++ (slashPositions ns).toList) := by
  simp [slashPositions, String.join_cons]

theorem next_slash (n : Nat) (ns : List Nat) (rest : List Char) (off : Nat) :
    next.run ⟨(slashPositions (n :: ns)).toList ++ rest, off⟩ =
      .ok (.slash, ⟨Nat.toDigits 10 n ++ ((slashPositions ns).toList ++ rest), off + 1⟩) := by
  rw [slashPositions_cons, List.cons_append, List.append_assoc]
  exact next_run rfl

theorem slashPositions_head (ns : List Nat) (rest : List Char) :
    ∃ c cs, (slashPositions ns).toList ++ ')' :: rest = c :: cs ∧ c.isDigit = false ∧
      Text.isNameChar c = false ∧ c ≠ ':' := by
  cases ns with
  | nil => exact ⟨')', rest, by simp [slashPositions], rfl, rfl, by decide⟩
  | cons n ns => exact ⟨'/', _, by rw [slashPositions_cons]; rfl, rfl, rfl, by decide⟩

/-- The child positions of an `element()` payload, each a number from 1 to the limit, are read
up to the closing bracket. -/
theorem elementPositions_run {ns : List Nat} (hns : ∀ n ∈ ns, 1 ≤ n ∧ n ≤ numberLimit) :
    ∀ fuel, ns.length < fuel → ∀ (off : Nat) (rest : List Char), ∃ off',
      (do elementPositions fuel (← next)).run ⟨(slashPositions ns).toList ++ ')' :: rest, off⟩ =
        .ok (ns, ⟨rest, off'⟩) := by
  induction ns with
  | nil =>
    intro fuel hfuel off rest
    obtain ⟨f, rfl⟩ : ∃ f, fuel = f + 1 := ⟨fuel - 1, by simp at hfuel; omega⟩
    refine ⟨off + 1, ?_⟩
    have hnext : next.run ⟨(slashPositions []).toList ++ ')' :: rest, off⟩ = .ok (.rightParen, ⟨rest, off + 1⟩) :=
      next_run rfl
    simp only [StateT.run_bind, hnext, ok_bind, elementPositions]
    rfl
  | cons n ns ih =>
    intro fuel hfuel off rest
    obtain ⟨f, rfl⟩ : ∃ f, fuel = f + 1 := ⟨fuel - 1, by simp at hfuel; omega⟩
    have hn := hns n (List.mem_cons_self ..)
    obtain ⟨k, rfl⟩ : ∃ k, n = k + 1 := ⟨n - 1, by omega⟩
    obtain ⟨c, cs, hcs, hc, -, -⟩ := slashPositions_head ns rest
    obtain ⟨off', hrest⟩ := ih (fun m hm => hns m (List.mem_cons_of_mem _ hm)) f (by simp at hfuel; omega)
      (off + 1 + (Nat.toDigits 10 (k + 1)).length) rest
    refine ⟨off', ?_⟩
    have hnumber : next.run ⟨Nat.toDigits 10 (k + 1) ++ ((slashPositions ns).toList ++ ')' :: rest), off + 1⟩ =
        .ok (.number (k + 1), ⟨(slashPositions ns).toList ++ ')' :: rest, off + 1 + (Nat.toDigits 10 (k + 1)).length⟩) := by
      rw [hcs]
      exact next_run (nextLexeme_number hn.2 hc cs _)
    simp only [StateT.run_bind, next_slash, ok_bind, elementPositions, StateT.run_get, pure_bind,
      hnumber]
    rw [StateT.run_bind] at hrest
    rw [← bind_assoc, hrest]
    rfl

theorem schemeParts_eof (fuel : Nat) (parts : List Part) (l : PointerLexer) :
    (schemeParts fuel parts .eof).run l = .ok (parts, l) := by
  cases fuel <;> rfl

theorem next_end (off : Nat) : next.run ⟨[], off⟩ = .ok (.eof, ⟨[], off⟩) := rfl

theorem skipBlanks_end (off : Nat) : skipBlanks.run ⟨[], off⟩ = .ok ((), ⟨[], off⟩) := rfl

theorem schemeParts_element (fuel off : Nat) {payload : List Char} {part : Option Part}
    (h : ∃ off', (PointerParser.payload .element).run ⟨payload, off + 1⟩ = .ok (part, ⟨[], off'⟩)) :
    ∃ l, (schemeParts (fuel + 1) [] (.name "element" true)).run ⟨'(' :: payload, off⟩ =
      .ok (part.toList, l) := by
  obtain ⟨off', hpayload⟩ := h
  refine ⟨⟨[], off'⟩, ?_⟩
  have hopen : (modify fun l : PointerLexer => l.nextChar.2 : PointerParser Unit).run
      ⟨'(' :: payload, off⟩ = .ok ((), ⟨payload, off + 1⟩) := rfl
  simp only [schemeParts, StateT.run_bind, show Scheme.lookup "" "element" = .element from rfl,
    pure_bind, hopen, ok_bind, hpayload, skipBlanks_end, next_end, List.nil_append,
    schemeParts_eof]

theorem length_slashPositions (ns : List Nat) : ns.length ≤ (slashPositions ns).toList.length := by
  induction ns with
  | nil => simp
  | cons n ns ih =>
    rw [slashPositions_cons]
    simp only [List.length_cons, List.length_append]
    omega

theorem payload_element_some {X : String} (hX : Text.isNCName X = true) {ns : List Nat}
    (hns : ∀ n ∈ ns, 1 ≤ n ∧ n ≤ numberLimit) (off : Nat) :
    ∃ off', (payload .element).run ⟨X.toList ++ ((slashPositions ns).toList ++ [')']), off⟩ =
      .ok (some (.element (some X) ns), ⟨[], off'⟩) := by
  obtain ⟨c, cs, hcs, -, hname, hcolon⟩ := slashPositions_head ns []
  have hnext : next.run ⟨X.toList ++ ((slashPositions ns).toList ++ [')']), off⟩ =
      .ok (.name X (c == '('), ⟨(slashPositions ns).toList ++ [')'], off + X.length⟩) := by
    refine next_run ?_
    rw [nextLexeme_name hX _ (fun y ys h => by rw [hcs] at h; cases h; exact hname)
      (by rw [hcs]; simpa using hcolon), hcs]
    rfl
  have hlen := length_slashPositions ns
  obtain ⟨off', hpos⟩ := elementPositions_run hns
    ((X.toList ++ ((slashPositions ns).toList ++ [')'])).length + 1)
    (by simp only [List.length_append]; omega) (off + X.length) []
  refine ⟨off', ?_⟩
  simp only [payload, elementPayload, StateT.run_bind, StateT.run_get, pure_bind, hnext, ok_bind]
  rw [StateT.run_bind] at hpos
  rw [← bind_assoc, hpos]
  rfl

theorem payload_element_none {ns : List Nat} (hne : ns ≠ [])
    (hns : ∀ n ∈ ns, 1 ≤ n ∧ n ≤ numberLimit) (off : Nat) :
    ∃ off', (payload .element).run ⟨(slashPositions ns).toList ++ [')'], off⟩ =
      .ok (some (.element none ns), ⟨[], off'⟩) := by
  obtain ⟨n, ns', rfl⟩ := List.exists_cons_of_ne_nil hne
  have hlen := length_slashPositions (n :: ns')
  obtain ⟨off', hpos⟩ := elementPositions_run hns
    (((slashPositions (n :: ns')).toList ++ [')']).length + 1)
    (by simp only [List.length_append]; omega) off []
  refine ⟨off', ?_⟩
  rw [StateT.run_bind, next_slash, ok_bind] at hpos
  simp only [payload, elementPayload, StateT.run_bind, StateT.run_get, pure_bind, next_slash, ok_bind,
    hpos]
  rfl

end PointerParser

open PointerLexer PointerParser

theorem next_element (payload : List Char) :
    next.run ⟨("element(".toList ++ payload), 0⟩ = .ok (.name "element" true, ⟨'(' :: payload, 7⟩) := by
  refine next_run ?_
  exact nextLexeme_name (X := "element") (by decide) ('(' :: payload)
    (fun y ys h => by cases h; rfl) (by simp) 0

theorem parse_element (payload : List Char) {name : Option String} {ns : List Nat}
    (htext : (Part.element name ns).display.toList = "element(".toList ++ payload)
    (h : ∃ off', (PointerParser.payload .element).run ⟨payload, 8⟩ =
      .ok (some (.element name ns), ⟨[], off'⟩)) :
    Pointer.parse (Part.element name ns).display =
      .ok (.schemeBased [.element name ns] (Part.element name ns).display) := by
  obtain ⟨l, hparts⟩ := schemeParts_element ((Part.element name ns).display.length) 7 h
  have hstart : PointerLexer.ofString (Part.element name ns).display =
      ⟨"element(".toList ++ payload, 0⟩ := by
    rw [PointerLexer.ofString, htext]
  simp only [Pointer.parse, hstart, next_element, ok_bind]
  simp only [hparts, ok_bind]
  rfl

theorem parse_element_some {X : String} (hX : Text.isNCName X = true) {ns : List Nat}
    (hns : ∀ n ∈ ns, 1 ≤ n ∧ n ≤ numberLimit) :
    Pointer.parse (Part.element (some X) ns).display =
      .ok (.schemeBased [.element (some X) ns] (Part.element (some X) ns).display) :=
  parse_element (X.toList ++ ((slashPositions ns).toList ++ [')']))
    (by simp [Part.display, Part.elementPayload, slashPositions]) (payload_element_some hX hns 8)

theorem parse_element_none {ns : List Nat} (hne : ns ≠ [])
    (hns : ∀ n ∈ ns, 1 ≤ n ∧ n ≤ numberLimit) :
    Pointer.parse (Part.element none ns).display =
      .ok (.schemeBased [.element none ns] (Part.element none ns).display) :=
  parse_element ((slashPositions ns).toList ++ [')'])
    (by simp [Part.display, Part.elementPayload, slashPositions]) (payload_element_none hne hns 8)

theorem parse_shorthand {X : String} (hX : Text.isNCName X = true) :
    Pointer.parse X = .ok (.shorthand X) := by
  have hname : next.run (PointerLexer.ofString X) = .ok (.name X false, ⟨[], X.length⟩) := by
    refine next_run ?_
    have h := nextLexeme_name hX [] (fun y ys h => by cases h) (by simp) 0
    simp only [List.append_nil, Nat.zero_add] at h
    exact h
  simp only [Pointer.parse, hname, ok_bind, next_end]
  rfl

/-- What a pointer that selects at most one node gives: the node, or the error that it selects
nothing, naming the pointer's text. -/
def singleSelection (text : String) : Option Nat → Except PointerError (List Selected)
  | some m => .ok [.node m]
  | none => .error (.noSubresources text)

theorem selectBy_of_evaluate {d : Document} {node : Nat} {b : Path.Bindings} {expr : String}
    {o : Option Nat} (h : Path.evaluate d node expr b = .ok (.nodes o.toList)) :
    selectBy d node b expr = o.map fun m => [.node m] := by
  cases o <;> simp [selectBy, h]

theorem evaluate_element {d : Document} {node : Nat} {name : Option String} {ns : List Nat}
    {o : Option Nat} (text : String)
    (h : Path.evaluate d node (Part.elementExpression name ns) pointerBindings = .ok (.nodes o.toList)) :
    (Pointer.schemeBased [.element name ns] text).evaluate d node = singleSelection text o := by
  cases o <;> simp [Pointer.evaluate, selectParts, Part.expression?, selectBy_of_evaluate h,
    singleSelection]

theorem numberLimit_lt : numberLimit < 2 ^ 53 := by decide

/-- Resolving an `element()` pointer walks the element children from the element with the ID, or
from the document node, and resolving a shorthand pointer finds the element with the ID; no
result depends on the context node. -/
theorem element_pointer_resolution (d : Document) (node : Nat) (X : String) (ns : List Nat)
    (hX : Text.isNCName X = true) (hns : ∀ n ∈ ns, 1 ≤ n ∧ n ≤ numberLimit) :
    (Pointer.parse (Part.element (some X) ns).display >>= (·.evaluate d node)) =
        singleSelection (Part.element (some X) ns).display
          ((d.elementById X).bind fun m => Path.childPath d m ns) ∧
      (ns ≠ [] → (Pointer.parse (Part.element none ns).display >>= (·.evaluate d node)) =
        singleSelection (Part.element none ns).display (Path.childPath d 0 ns)) ∧
      (Pointer.parse X >>= (·.evaluate d node)) = singleSelection X (d.elementById X) := by
  have hpos : ∀ n ∈ ns, 1 ≤ n ∧ n < 2 ^ 53 :=
    fun n hn => ⟨(hns n hn).1, Nat.lt_of_le_of_lt (hns n hn).2 numberLimit_lt⟩
  refine ⟨?_, fun hne => ?_, ?_⟩
  · rw [parse_element_some hX hns, ok_bind]
    exact evaluate_element _ (Path.evaluate_elementExpression_some d node _ hX hpos)
  · rw [parse_element_none hne hns, ok_bind]
    exact evaluate_element _ (Path.evaluate_elementExpression_none d node _ hne hpos)
  · rw [parse_shorthand hX, ok_bind]
    have hid := selectBy_of_evaluate (Path.evaluate_id d node Path.Bindings.xmlOnly hX)
    cases h : d.elementById X <;> simp [Pointer.evaluate, hid, h, singleSelection]

theorem element_pointer_resolution_witness :
    Text.isNCName "x" = true ∧ (∀ n ∈ [2], 1 ≤ n ∧ n ≤ numberLimit) ∧
      ((Pointer.parse (Part.element (some "x") [2]).display >>= (·.evaluate default 0)) =
          singleSelection (Part.element (some "x") [2]).display
            (((default : Document).elementById "x").bind fun m => Path.childPath default m [2]) ∧
        ([2] ≠ [] → (Pointer.parse (Part.element none [2]).display >>= (·.evaluate default 0)) =
          singleSelection (Part.element none [2]).display (Path.childPath default 0 [2])) ∧
        (Pointer.parse "x" >>= (·.evaluate default 0)) =
          singleSelection "x" ((default : Document).elementById "x")) :=
  ⟨by decide, by decide, element_pointer_resolution default 0 "x" [2] (by decide) (by decide)⟩

end XmlPointer
