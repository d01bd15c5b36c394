import Mathlib
import XmlPointer.Proofs.Build

/-! # How deep a node records itself

A node keeps the count of its proper ancestors in 16 bits, so past 65535 levels the count
wraps. Start tags that are never closed nest each element in the one before it, and the
lenient build accepts them, leaving them open at the end of the input: after `n` of them the
innermost element has `n` ancestors and records the depth `n` modulo 2^16
(`Document.parse_nestedOpens`). The element 65536 levels down records depth 0. -/
namespace XmlPointer

open Markup

def openTag : List UInt8 := [0x3C, 0x61, 0x3E]

def nestedOpens (n : Nat) : List UInt8 :=
  (List.replicate n openTag).flatten

def aTag : StartTag := ⟨[0x61], []⟩

theorem nestedOpens_succ (n : Nat) : nestedOpens (n + 1) = openTag ++ nestedOpens n := by
  simp [nestedOpens, List.replicate_succ]

theorem length_nestedOpens (n : Nat) : (nestedOpens n).length = 3 * n := by
  simp [nestedOpens, openTag, Nat.mul_comm]

/-! ## Tokens and events -/

def openToken (pos : Nat) : Token :=
  ⟨.startTag, pos, pos + 3, some [0x61], some [], pos + 2⟩

theorem scan_openTag (pos : Nat) (rest : List UInt8) :
    Token.scan pos (openTag ++ rest) = .ok (openToken pos, rest) := by
  simp [openTag, Token.scan, scanStartTag, nameLength, endsName, findClose, isQuote, openToken,
    Text.isXmlBlankByte]

theorem event_openToken (pos : Nat) : (openToken pos).event false = .ok (some (.start aTag)) :=
  rfl

theorem tokensFrom_nestedOpens : ∀ (n fuel pos : Nat), n < fuel →
    tokensFrom fuel pos (nestedOpens n) =
      ((List.range n).map (fun k => openToken (pos + 3 * k)) ++
        [⟨.eof, pos + 3 * n, pos + 3 * n, none, none, pos + 3 * n⟩], none)
  | 0, fuel + 1, pos, _ => by simp [tokensFrom, nestedOpens, Token.scan]
  | n + 1, fuel + 1, pos, h => by
    have hrest := tokensFrom_nestedOpens n fuel (pos + 3) (by omega)
    rw [tokensFrom, nestedOpens_succ, scan_openTag]
    -- the tags after the first are read from three bytes on
    have hk : ∀ k, pos + 3 + 3 * k = pos + 3 * (k + 1) := fun k => by ring
    simp only [openToken, reduceCtorEq, if_false] at hrest ⊢
    simp only [hrest, hk, List.range_succ_eq_map, List.map_cons, List.map_map, List.cons_append,
      Function.comp_def, Nat.mul_zero, Nat.add_zero]

theorem eventsOf_openTokens (e : Token) (he : e.kind = .eof) :
    ∀ ps : List Nat, eventsOf false (ps.map openToken ++ [e]) =
      (ps.map (fun p => (p, Event.start aTag)) ++ [(e.start, .endDocument)], none)
  | [] => by simp [eventsOf, Token.event, he]
  | p :: ps => by
    rw [List.map_cons, List.cons_append, eventsOf, event_openToken]
    simp only [eventsOf_openTokens e he ps, List.map_cons, List.cons_append]
    rfl

theorem events_nestedOpens (n : Nat) :
    events false (nestedOpens n) =
      ((List.range n).map (fun k => (3 * k, Event.start aTag)) ++ [(3 * n, .endDocument)], none) := by
  have hbom : [(0xEF : UInt8), 0xBB, 0xBF].isPrefixOf (nestedOpens n) = false := by
    cases n with
    | zero => rfl
    | succ n => rw [nestedOpens_succ]; rfl
  have htoks := tokensFrom_nestedOpens n ((nestedOpens n).length + 1) 0
    (by rw [length_nestedOpens]; omega)
  simp only [Nat.zero_add] at htoks
  have hmap : (List.range n).map (fun k => openToken (3 * k)) =
      ((List.range n).map (3 * ·)).map openToken := by
    rw [List.map_map]
    rfl
  simp only [events, tokenize, startOf, hbom, if_false, Bool.false_eq_true, htoks, hmap]
  rw [eventsOf_openTokens _ rfl]
  simp [Function.comp_def]

theorem firstInvalid_nestedOpens (n : Nat) : Text.Utf8.firstInvalid (nestedOpens n) = none := by
  suffices h : ∀ start, Text.Utf8.firstInvalidFrom start (nestedOpens n) = none from h 0
  induction n with
  | zero => simp [nestedOpens, Text.Utf8.firstInvalidFrom]
  | succ n ih =>
    intro start
    rw [nestedOpens_succ]
    simpa [openTag, Text.Utf8.firstInvalidFrom, Text.Utf8.readUnit, Text.Utf8.width] using ih _

/-! ## The lenient build -/

namespace Builder

variable {b : Builder}

/-- Leniently, a start tag `<a>` always opens an element: the new node goes on the stack, and
the build has a root from then on if it had one or the stack was empty. -/
theorem openElement_aTag (hs : b.strict = false) (offset : Nat) :
    ∃ b', b.openElement aTag offset false = .ok b' ∧ b'.strict = false ∧
      b'.stack = b.nodes.size :: b.stack ∧ (b.root.isSome ∨ b.stack = [] → b'.root.isSome) := by
  have hres : ∀ scopes pre, ∃ ns, b.resolve scopes pre offset = .ok ns := by
    intro scopes pre
    unfold resolve
    split
    · exact ⟨_, rfl⟩
    · exact ⟨"", by simp [hs]⟩
  obtain ⟨ns, hns⟩ := hres (declareAll b.scopes aTag.attributes)
    ((Option.map text (splitName aTag.name).1).getD "")
  cases hopen : b.openElement aTag offset false with
  | error e =>
    -- a tag without attributes stores none, so nothing can fail
    unfold openElement at hopen
    simp only [hs, Bool.and_false, Bool.false_eq_true, if_false, hns] at hopen
    simp [aTag, storeAttributes] at hopen
  | ok b' =>
    obtain ⟨-, -, -, -, -, rfl⟩ := openElement_eq_ok_elim hopen
    refine ⟨_, rfl, hs, rfl, fun h => ?_⟩
    -- the new element is the root unless there was one, which stays
    show (if b.parent = 0 && b.root.isNone then some b.nodes.size else b.root).isSome
    split
    · rfl
    · rename_i hnot
      rcases h with h | h
      · exact h
      · simp only [parent, h, List.head?_nil, Option.getD_none, decide_true, Bool.true_and,
          Option.isNone_iff_eq_none] at hnot
        exact Option.isSome_iff_ne_none.mpr hnot

theorem run_aTags : ∀ (os : List Nat) (b : Builder), b.strict = false →
    ∃ b' : Builder, (∀ rest, b.run (os.map (fun o => (o, Event.start aTag)) ++ rest) = b'.run rest) ∧
      b'.strict = false ∧ b'.stack.length = b.stack.length + os.length ∧
      (b.root.isSome ∨ (b.stack = [] ∧ os ≠ []) → b'.root.isSome)
  | [], b, hs => ⟨b, fun _ => rfl, hs, rfl, fun h => by simpa using h⟩
  | o :: os, b, hs => by
    obtain ⟨b₁, hopen, hs₁, hstack, hroot⟩ := openElement_aTag hs o
    obtain ⟨b', hrun, hs', hlen, hroot'⟩ := run_aTags os b₁ hs₁
    refine ⟨b', fun rest => ?_, hs', ?_, fun h => hroot' (.inl (hroot ?_))⟩
    · simp only [List.map_cons, List.cons_append, Builder.run, Builder.step, hopen]
      exact hrun rest
    · simp only [hlen, hstack, List.length_cons]
      omega
    · rcases h with h | ⟨h, -⟩
      · exact .inl h
      · exact .inr h

end Builder

/-- Leniently, `n` start tags left open build a document whose innermost element has `n` proper
ancestors and records the depth `n` kept in 16 bits. -/
theorem Document.parse_nestedOpens (n : Nat) (hn : 0 < n) :
    ∃ d, Document.parse (nestedOpens n) false = .ok d ∧ ∃ x node, d.node? x = some node ∧
      (d.ancestors x).length = n ∧ node.depth = UInt16.ofNat n := by
  obtain ⟨b, hrun, -, hlen, hroot⟩ :=
    Builder.run_aTags ((List.range n).map (3 * ·)) (Builder.start false) rfl
  have hroot : b.root.isSome := hroot (.inr ⟨rfl, by simp; omega⟩)
  simp only [List.length_map, List.length_range, Builder.start, List.length_nil,
    Nat.zero_add] at hlen
  -- the events are the start tags and the end of the document, which changes nothing
  have hevs : (Builder.start false).run (events false (nestedOpens n)).1 = .ok b := by
    rw [events_nestedOpens]
    rw [List.map_map] at hrun
    exact (hrun [(3 * n, .endDocument)]).trans rfl
  obtain ⟨x, l, hxl⟩ : ∃ x l, b.stack = x :: l :=
    List.exists_cons_of_ne_nil (List.ne_nil_of_length_pos (by omega))
  obtain ⟨r, hr⟩ := Option.isSome_iff_exists.mp hroot
  have hparse : Document.parse (nestedOpens n) false = b.finish (nestedOpens n) := by
    have hfault : (events false (nestedOpens n)).2 = none := by rw [events_nestedOpens]
    simp only [Document.parse, firstInvalid_nestedOpens, hevs, hfault, hxl, Bool.false_eq_true,
      if_false]
    split <;> rfl
  obtain ⟨d, hd⟩ : ∃ d, b.finish (nestedOpens n) = .ok d := ⟨_, by simp only [Builder.finish, hr]; rfl⟩
  obtain ⟨b', hrun', hnodes, -⟩ := Builder.parse_eq_ok (hparse.trans hd)
  obtain rfl : b = b' := Except.ok.inj (hevs.symm.trans hrun')
  -- the open elements are the innermost one's ancestors but the document node
  have hinv := ((Builder.Inv.start false).run (Builder.Records.start false) hevs).1
  have hn' : d.nodes = b.arena.nodes := hnodes
  have hanc : d.ancestors x = l ++ [0] := by
    rw [ancestors_congr hn']
    exact Builder.OpenPath.ancestors_eq hinv.arena (hxl ▸ hinv.path)
  obtain ⟨node, hnode⟩ : ∃ node, d.node? x = some node := by
    have hk : b.arena.kind? x = some .element := (hxl ▸ hinv.path).1
    rw [← kind?_congr hn'] at hk
    obtain ⟨node, hnode, -⟩ := Option.map_eq_some_iff.mp hk
    exact ⟨node, hnode⟩
  have hlen' : (d.ancestors x).length = n := by
    rw [hanc, List.length_append, List.length_singleton, ← hlen, hxl, List.length_cons]
  refine ⟨d, hparse.trans hd, x, node, hnode, hlen', ?_⟩
  rw [(hinv.arena.congr hn').depth_eq hnode, hlen']

/-- The element nested 65536 levels deep has 65536 proper ancestors, and records depth 0. -/
theorem Document.depth_wraps_at_nesting_65536 :
    ∃ d, Document.parse (nestedOpens 65536) false = .ok d ∧ ∃ x node, d.node? x = some node ∧
      (d.ancestors x).length = 65536 ∧ node.depth = 0 :=
  Document.parse_nestedOpens 65536 (by decide)

end XmlPointer
