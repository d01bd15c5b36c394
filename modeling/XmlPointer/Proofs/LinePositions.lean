import Mathlib
import XmlPointer.Proofs.TokenOffsets
import XmlPointer.Proofs.Build

/-! # Line positions of nodes

`linePositions` walks the bytes once for all offsets, sorted, and puts the positions back in the
order of the offsets; it finds for each offset what `linePosition` gives for it alone. That is
one more than the line feeds before the offset, and one more than the bytes since the last of
them that are no continuation bytes: for well-formed bytes, the characters of that line.

A built document records the position of each node's token. Its input is well-formed UTF-8, the
document node is at offset 0 and every other node at the offset of an event, which is a character
boundary; so the line of a node counts the line feeds before its token, and its column the
characters from the start of its line to its token (`Document.line_positions`). -/
namespace XmlPointer


section Walk

theorem linePosition_succ {input rest : List UInt8} {pos : Nat} {b : UInt8}
    (h : input.drop pos = b :: rest) :
    linePosition input (pos + 1) = stepPosition (linePosition input pos) b := by
  have htake : input.take (pos + 1) = input.take pos ++ [b] := by
    rw [List.take_add_one, ← List.head?_drop, h]
    rfl
  unfold linePosition stepPosition
  rw [htake]
  by_cases hb : b = 0x0A
  · subst hb
    simp
  · by_cases hc : (b &&& 0xC0 != 0x80) = true <;> simp [hb, hc]

theorem linePosition_of_length_le {input : List UInt8} {o : Nat} (h : input.length ≤ o) :
    linePosition input o = linePosition input input.length := by
  unfold linePosition
  rw [List.take_of_length_le h, List.take_of_length_le (Nat.le_refl _)]

/-- Walking the bytes finds the position of each offset, for offsets in increasing order from
where the walk is. -/
theorem positionsFrom_eq_map {input : List UInt8} (bs : List UInt8) (pos : Nat) (p : Nat × Nat)
    (os : List Nat) (hbs : input.drop pos = bs) (hp : p = linePosition input pos)
    (hsorted : os.Pairwise (· ≤ ·)) (hge : ∀ o ∈ os, pos ≤ o) :
    positionsFrom bs pos p os = os.map (linePosition input) := by
  fun_induction positionsFrom bs pos p os with
  | case1 => rfl
  | case2 bs pos p o os hle ih =>
    -- an offset the walk has reached is where the walk is
    obtain ⟨hfirst, hrest⟩ := List.pairwise_cons.mp hsorted
    have ho : o = pos := Nat.le_antisymm hle (hge o List.mem_cons_self)
    subst ho
    rw [List.map_cons, ← hp, ih hbs hp hrest hfirst]
  | case3 pos p o os hlt ih =>
    -- past the end, every offset has the position of the end
    obtain ⟨hfirst, hrest⟩ := List.pairwise_cons.mp hsorted
    have hend : input.length ≤ pos := List.drop_eq_nil_iff.mp hbs
    have hpos : ∀ x, pos ≤ x → linePosition input x = p := fun x hx => by
      rw [hp, linePosition_of_length_le (by omega), linePosition_of_length_le hend]
    rw [List.map_cons, hpos o (by omega),
      ih hbs hp hrest fun x hx => Nat.le_trans (by omega) (hfirst x hx)]
  | case4 pos p o os hlt b rest ih =>
    refine ih ?_ ?_ hsorted ?_
    · rw [← List.drop_drop, hbs]
      rfl
    · rw [hp, linePosition_succ hbs]
    · intro x hx
      have := hge x hx
      rcases List.mem_cons.mp hx with rfl | hx
      · omega
      · have := (List.pairwise_cons.mp hsorted).1 x hx
        omega

theorem pairwise_mergeSort_key {α : Type} (f : α → Nat) (l : List α) :
    (l.mergeSort fun a b => decide (f a ≤ f b)).Pairwise (fun a b => f a ≤ f b) := by
  have htrans : ∀ a b c : α,
      decide (f a ≤ f b) = true → decide (f b ≤ f c) = true →
        decide (f a ≤ f c) = true := by
    intro a b c hab hbc
    simp only [decide_eq_true_eq] at *
    omega
  simpa using List.pairwise_mergeSort htrans (fun a b => by simp; omega) l

theorem mergeSort_index_zipIdx (offsets : List Nat) :
    (offsets.zipIdx.mergeSort fun a b => decide (a.1 ≤ b.1)).mergeSort
      (fun a b => decide (a.2 ≤ b.2)) = offsets.zipIdx := by
  have hsorted := pairwise_mergeSort_key Prod.snd
    (offsets.zipIdx.mergeSort fun a b => decide (a.1 ≤ b.1))
  have hindex : offsets.zipIdx.Pairwise (fun a b => a.2 ≤ b.2) := by
    have := List.pairwise_lt_range' (s := 0) (n := offsets.length)
    rw [← List.zipIdx_map_snd, List.pairwise_map] at this
    exact this.imp Nat.le_of_lt
  refine List.Perm.eq_of_pairwise ?_ hsorted hindex
    ((List.mergeSort_perm _ _).trans (List.mergeSort_perm _ _))
  intro a b ha hb hab hba
  simp only [List.mem_mergeSort] at ha
  rw [List.mem_zipIdx_iff_getElem?] at ha hb
  have hi : a.2 = b.2 := Nat.le_antisymm hab hba
  rw [hi, hb] at ha
  exact Prod.ext (Option.some.inj ha).symm hi

theorem linePositions_eq_map (input : List UInt8) (offsets : List Nat) :
    linePositions input offsets = offsets.map (linePosition input) := by
  unfold linePositions
  dsimp only
  generalize hs : offsets.zipIdx.mergeSort (fun a b => decide (a.1 ≤ b.1)) = sorted
  have hsorted : (sorted.map (·.1)).Pairwise (· ≤ ·) := by
    have := pairwise_mergeSort_key Prod.fst offsets.zipIdx
    rw [hs] at this
    simpa [List.pairwise_map] using this
  rw [positionsFrom_eq_map input 0 (1, 1) _ (List.drop_zero) rfl hsorted (by simp), List.map_map,
    ← List.map_prod_left_eq_zip,
    ← List.map_mergeSort (r := fun a b => decide (a.2 ≤ b.2)) (fun a _ b _ => rfl), ← hs,
    mergeSort_index_zipIdx, List.map_map]
  conv_rhs => rw [← List.zipIdx_map_fst 0 offsets, List.map_map]
  rfl

end Walk

section Columns

open Text.Utf8

/-- The line of an offset is one more than the line feeds before it, and its column one more
than the characters since the last of them, which start at `s`; the bytes before the offset
being well-formed, so are those of its line. -/
theorem linePosition_of_wellFormed {input : List UInt8} {o : Nat} (hw : WellFormed (input.take o)) :
    ∃ s ≤ o, (s = 0 ∨ input[s - 1]? = some 0x0A) ∧ 0x0A ∉ (input.take o).drop s ∧
      WellFormed ((input.take o).drop s) ∧
      linePosition input o =
        ((input.take o).count 0x0A + 1, (decodeLossy ((input.take o).drop s)).length + 1) := by
  generalize hlt : input.take o = l at hw
  -- the last line is what is read back from the end up to a line feed
  obtain ⟨u, v, hu, hv, hl⟩ : ∃ u v, u = l.reverse.takeWhile (· != 0x0A) ∧
      v = l.reverse.dropWhile (· != 0x0A) ∧ l = v.reverse ++ u.reverse :=
    ⟨_, _, rfl, rfl, by
      rw [← List.reverse_append, List.takeWhile_append_dropWhile, List.reverse_reverse]⟩
  have hdrop : l.drop v.length = u.reverse := by
    rw [hl, show v.length = v.reverse.length from List.length_reverse.symm, List.drop_left]
  have hlen : v.length ≤ o := by
    have : l.length ≤ o := hlt ▸ List.length_take_le o input
    rw [hl, List.length_append, List.length_reverse] at this
    omega
  -- what is read back stops at a line feed, or at the start
  have hfeed : v = [] ∨ ∃ v', v = 0x0A :: v' := by
    have hhead := List.head?_dropWhile_not (· != 0x0A) l.reverse
    rw [← hv] at hhead
    cases v with
    | nil => exact .inl rfl
    | cons x v' =>
      simp only [List.head?_cons, bne_eq_false_iff_eq] at hhead
      exact .inr ⟨v', by rw [hhead]⟩
  have hline : WellFormed (l.drop v.length) := by
    rw [hdrop]
    rcases hfeed with rfl | ⟨v', rfl⟩
    · simpa [hl] using hw
    · rw [hl, List.reverse_cons, List.append_assoc, List.singleton_append] at hw
      have hfeed' : WellFormed (0x0A :: u.reverse) := (hw.split (by simp; rfl)).2
      simpa [show width 0x0A = 1 by decide] using hfeed'.drop_width
  refine ⟨v.length, hlen, ?_, ?_, hline, ?_⟩
  · rcases hfeed with rfl | ⟨v', rfl⟩
    · exact .inl rfl
    · refine .inr ?_
      have hlast : l[v'.length]? = some 0x0A := by
        rw [hl, List.reverse_cons, List.append_assoc, List.getElem?_append_right (by simp)]
        simp
      rw [← hlast, ← hlt, List.getElem?_take_of_lt (by simp at hlen; omega)]
      simp
  · rw [hdrop]
    intro h
    have := List.mem_takeWhile_imp (hu ▸ List.mem_reverse.mp h)
    simp at this
  · -- the column counts the bytes of the last line that start characters
    unfold linePosition
    dsimp only
    rw [hlt, hline.length_decodeLossy, hdrop, ← hu, List.filter_reverse, List.length_reverse]

end Columns

/-- The node a build makes for an event: an element named by a start or empty-element tag, and
a leaf of the event's kind with its content for character data, CDATA, a comment or a
processing instruction. -/
def Markup.Event.Makes : Markup.Event → Node → Prop
  | .start t, n | .empty t, n => n.kind = .element ∧ n.name = Builder.text t.name
  | .text c, n => n.kind = .text ∧ n.value = Builder.text c
  | .cdata c, n => n.kind = .cdata ∧ n.value = Builder.text c
  | .comment c, n => n.kind = .comment ∧ n.value = Builder.text c
  | .instruction t v, n =>
    n.kind = .instruction ∧ n.name = Builder.text t ∧ n.value = Builder.text v
  | _, _ => False

theorem Markup.Event.Makes.of_data {ev : Markup.Event} {n n' : Node} (h : ev.Makes n)
    (hk : n'.kind = n.kind) (hn : n'.name = n.name) (hv : n'.value = n.value) : ev.Makes n' := by
  cases ev <;> simp_all [Markup.Event.Makes]

/-- Where the nodes of a document come from: the document node is at offset 0, and every other
node was made for one of the events `evs`, at that event's offset kept in 32 bits. -/
def Document.OffsetsIn (evs : List (Nat × Markup.Event)) (d : Document) : Prop :=
  ∀ i node, d.node? i = some node → (i = 0 → node.offset = 0) ∧
    (0 < i → ∃ o ev, (o, ev) ∈ evs ∧ ev.Makes node ∧ node.offset = .ofNat o)

theorem Document.OffsetsIn.congr {evs : List (Nat × Markup.Event)} {d d' : Document}
    (hof : d.OffsetsIn evs) (hn : d'.nodes = d.nodes) : d'.OffsetsIn evs := by
  intro i node hi
  exact hof i node (by rwa [Document.node?, hn] at hi)

namespace Builder

variable {b b' : Builder}

theorem offsetsIn_start (evs : List (Nat × Markup.Event)) (strict : Bool) :
    (start strict).arena.OffsetsIn evs := by
  intro i node hi
  have hlt := Document.lt_size_of_node? hi
  simp only [arena_size, Builder.start, List.size_toArray, List.length_singleton] at hlt
  obtain rfl : i = 0 := by omega
  cases hi
  exact ⟨fun _ => rfl, fun h0 => absurd h0 (Nat.lt_irrefl 0)⟩

theorem offsetsIn_append {evs : List (Nat × Markup.Event)} (hof : b.arena.OffsetsIn evs)
    (h : Inv b) {n : Node} (hn : ∃ o ev, (o, ev) ∈ evs ∧ ev.Makes n ∧ n.offset = .ofNat o) :
    (b.append n).arena.OffsetsIn evs := by
  have hp := h.parent_lt_size
  intro i node hi
  by_cases hiN : i = b.nodes.size
  · rw [node?_append n hp h.lastChild_lt, if_pos hiN] at hi
    cases hi
    obtain ⟨o, ev, hmem, hmk, hoff⟩ := hn
    exact ⟨fun h0 => absurd (h0 ▸ hiN) (by omega),
      fun _ => ⟨o, ev, hmem, hmk.of_data rfl rfl rfl, hoff⟩⟩
  · obtain ⟨n0, _, _, _, hn0, rfl⟩ := exists_node?_of_append hp h.lastChild_lt hiN hi
    obtain ⟨h0, hpos⟩ := hof i n0 hn0
    refine ⟨h0, fun hi0 => ?_⟩
    obtain ⟨o, ev, hmem, hmk, hoff⟩ := hpos hi0
    exact ⟨o, ev, hmem, hmk.of_data rfl rfl rfl, hoff⟩

/-- One event of `evs` either adds the node made for it at its offset or adds none. -/
theorem offsetsIn_step {evs : List (Nat × Markup.Event)} (hof : b.arena.OffsetsIn evs)
    (h : Inv b) {offset : Nat} {ev : Markup.Event} (hmem : (offset, ev) ∈ evs)
    (hs : b.step offset ev = .ok b') : b'.arena.OffsetsIn evs := by
  cases ev with
  | start tag | empty tag =>
    obtain ⟨_, _, _, -, -, rfl⟩ := openElement_eq_ok_elim hs
    exact offsetsIn_append hof h ⟨offset, _, hmem, ⟨rfl, rfl⟩, rfl⟩
  | finish name => exact hof.congr (h.closeElement hs).2
  | text c | cdata c =>
    simp only [Builder.step] at hs
    split at hs
    · split at hs
      · cases hs
      · cases hs
        exact hof
    · cases hs
      exact offsetsIn_append hof h ⟨offset, _, hmem, ⟨rfl, rfl⟩, rfl⟩
  | comment c =>
    cases hs
    exact offsetsIn_append hof h ⟨offset, _, hmem, ⟨rfl, rfl⟩, rfl⟩
  | instruction target data =>
    cases hs
    exact offsetsIn_append hof h ⟨offset, _, hmem, ⟨rfl, rfl, rfl⟩, rfl⟩
  | doctype c =>
    simp only [Builder.step] at hs
    split at hs
    · cases hs
    · cases hs
      exact hof
  | declaration | endDocument =>
    cases hs
    exact hof

theorem offsetsIn_run {all : List (Nat × Markup.Event)} :
    ∀ {evs : List (Nat × Markup.Event)} {c c' : Builder}, (∀ e ∈ evs, e ∈ all) → Inv c →
      c.arena.OffsetsIn all → c.run evs = .ok c' → c'.arena.OffsetsIn all
  | [], c, c', _, _, hof, hrun => by
    cases hrun
    exact hof
  | (offset, ev) :: rest, c, c', hsub, h, hof, hrun => by
    simp only [Builder.run] at hrun
    split at hrun
    · cases hrun
    · rename_i c1 hs
      exact offsetsIn_run (fun e he => hsub e (List.mem_cons_of_mem _ he)) (h.step hs)
        (offsetsIn_step hof h (hsub _ List.mem_cons_self) hs) hrun

theorem finish_eq_ok {input : List UInt8} {d : Document} (h : b.finish input = .ok d) :
    d.nodes = b.nodes ∧
      d.lines = (linePositions input (b.nodes.toList.map (·.offset.toNat))).toArray := by
  unfold finish at h
  split at h
  · cases h
  · cases h
    exact ⟨rfl, rfl⟩

end Builder

theorem Document.parse_firstInvalid {input : List UInt8} {strict : Bool} {d : Document}
    (h : Document.parse input strict = .ok d) : Text.Utf8.firstInvalid input = none := by
  unfold Document.parse at h
  split at h
  · cases h
  · assumption

theorem Document.line?_of_parse {input : List UInt8} {strict : Bool} {d : Document}
    (h : Document.parse input strict = .ok d) (n : Nat) :
    d.line? n = d.nodes[n]?.map fun node => linePosition input node.offset.toNat := by
  obtain ⟨b, -, hfin⟩ := Builder.parse_finish h
  obtain ⟨hnodes, hlines⟩ := Builder.finish_eq_ok hfin
  simp [Document.line?, hlines, hnodes, linePositions_eq_map, Function.comp_def]

theorem Document.parse_offsets {input : List UInt8} {strict : Bool} {d : Document}
    (h : Document.parse input strict = .ok d) : d.OffsetsIn (Markup.events strict input).1 := by
  obtain ⟨b, hrun, hfin⟩ := Builder.parse_finish h
  have hof := Builder.offsetsIn_run (fun e he => he) (Builder.Inv.start strict)
    (Builder.offsetsIn_start _ strict) hrun
  exact hof.congr (Builder.finish_eq_ok hfin).1
open Text.Utf8 in
theorem wellFormed_take_of_offset {input : List UInt8} {strict : Bool} {o : Nat}
    (hw : WellFormed input) (ho : o = 0 ∨ ∃ ev, (o, ev) ∈ (Markup.events strict input).1) :
    o ≤ input.length ∧ WellFormed (input.take o) := by
  rcases ho with rfl | ⟨ev, hev⟩
  · exact ⟨Nat.zero_le _, by simpa using WellFormed.nil⟩
  · obtain ⟨pre, suf, rfl, rfl, hpre, -⟩ := Markup.events_offset_boundary hw hev
    exact ⟨by simp, by simpa using hpre⟩

def LineStart (input : List UInt8) (o s : Nat) : Prop :=
  s ≤ o ∧ (s = 0 ∨ input[s - 1]? = some 0x0A) ∧ 0x0A ∉ (input.take o).drop s

theorem Document.parse_offset_origin {input : List UInt8} {strict : Bool} {d : Document}
    (h : Document.parse input strict = .ok d) (hsmall : input.length < 2 ^ 32) {n : Nat}
    {node : Node} (hnode : d.node? n = some node) :
    (n = 0 → node.offset = 0) ∧ (n ≠ 0 → ∃ ev,
      (node.offset.toNat, ev) ∈ (Markup.events strict input).1 ∧ ev.Makes node) := by
  obtain ⟨h0, hpos⟩ := Document.parse_offsets h n node hnode
  refine ⟨h0, fun hn0 => ?_⟩
  obtain ⟨o, ev, hmem, hmk, hoff⟩ := hpos (Nat.pos_of_ne_zero hn0)
  -- an event's offset is within the input, so it is kept whole in 32 bits
  have hle := (wellFormed_take_of_offset
    (Text.Utf8.firstInvalid_eq_none_iff.mp (Document.parse_firstInvalid h)) (.inr ⟨ev, hmem⟩)).1
  have hfit : node.offset.toNat = o := by
    rw [hoff]
    exact UInt32.toNat_ofNat_of_lt' (by simp only [UInt32.size]; omega)
  exact ⟨ev, hfit ▸ hmem, hmk⟩

open Text.Utf8 in
/-- The line of every node of a document built from fewer than 2^32 bytes is one more than the
line feeds before the start of its own token, and its column one more than the characters from
the start of that line to the token, which are well-formed UTF-8. The document node is at
offset 0, and every other node at the start of the token whose event made it; ids past the last
node have no line. -/
theorem Document.line_positions {input : List UInt8} {strict : Bool} {d : Document}
    (h : Document.parse input strict = .ok d) (hsmall : input.length < 2 ^ 32) :
    (∀ n < d.size, ∃ node, d.node? n = some node ∧ (n = 0 → node.offset = 0) ∧
      (n ≠ 0 → ∃ t ∈ (Markup.tokenize input).1, t.start = node.offset.toNat ∧
        ∃ ev, t.event strict = .ok (some ev) ∧ ev.Makes node) ∧
      ∃ s, LineStart input node.offset.toNat s ∧
        firstInvalid ((input.take node.offset.toNat).drop s) = none ∧
        d.line? n = some ((input.take node.offset.toNat).count 0x0A + 1,
          (decodeLossy ((input.take node.offset.toNat).drop s)).length + 1)) ∧
    ∀ n, d.size ≤ n → d.line? n = none := by
  have hw : WellFormed input := firstInvalid_eq_none_iff.mp (Document.parse_firstInvalid h)
  refine ⟨fun n hn => ?_, fun n hn => ?_⟩
  · obtain ⟨node, hnode⟩ := Document.exists_node?_of_lt hn
    obtain ⟨hfirst, hevent⟩ := Document.parse_offset_origin h hsmall hnode
    have hown : n ≠ 0 → ∃ t ∈ (Markup.tokenize input).1, t.start = node.offset.toNat ∧
        ∃ ev, t.event strict = .ok (some ev) ∧ ev.Makes node := by
      intro hn0
      obtain ⟨ev, hmem, hmk⟩ := hevent hn0
      obtain ⟨t, ht, hst, hev⟩ := Markup.eventsOf_offsets strict _ hmem
      exact ⟨t, ht, hst, ev, hev, hmk⟩
    -- the offset is that of the document node or of an event, so at a character boundary
    have hat : node.offset.toNat = 0 ∨
        ∃ ev, (node.offset.toNat, ev) ∈ (Markup.events strict input).1 := by
      by_cases h0 : n = 0
      · exact .inl (by rw [hfirst h0]; rfl)
      · obtain ⟨ev, hmem, -⟩ := hevent h0
        exact .inr ⟨ev, hmem⟩
    obtain ⟨-, hpre⟩ := wellFormed_take_of_offset hw hat
    obtain ⟨s, hs, hline, hnl, hwl, hpos⟩ := linePosition_of_wellFormed hpre
    refine ⟨node, hnode, hfirst, hown, s, ⟨hs, hline, hnl⟩, firstInvalid_eq_none_iff.mpr hwl, ?_⟩
    rw [Document.line?_of_parse h, show d.nodes[n]? = some node from hnode, Option.map_some, hpos]
  · rw [Document.line?_of_parse h, Array.getElem?_eq_none hn]
    rfl

/-- On the second line, after two spaces and an element named by a two-byte character, the
element at byte 11 stands at column 7: the character is counted once. -/
theorem Document.line_of_element_after_multibyte_name :
    ∃ d, Document.parse "<r>\n  <é/><b/>\n</r>".toUTF8.toList true = .ok d ∧
      "<r>\n  <é/><b/>\n</r>".toUTF8.toList.length < 2 ^ 32 ∧ d.line? 4 = some (2, 7) ∧
      ∃ node, d.node? 4 = some node ∧ node.offset.toNat = 11 ∧
        (∃ t ∈ (Markup.tokenize "<r>\n  <é/><b/>\n</r>".toUTF8.toList).1,
          t.start = node.offset.toNat ∧ ∃ ev, t.event true = .ok (some ev) ∧ ev.Makes node) ∧
        ∃ s, LineStart "<r>\n  <é/><b/>\n</r>".toUTF8.toList node.offset.toNat s ∧
          d.line? 4 = some (("<r>\n  <é/><b/>\n</r>".toUTF8.toList.take node.offset.toNat).count 0x0A + 1,
            (Text.Utf8.decodeLossy (("<r>\n  <é/><b/>\n</r>".toUTF8.toList.take
              node.offset.toNat).drop s)).length + 1) := by
  have hrun : (Document.parse "<r>\n  <é/><b/>\n</r>".toUTF8.toList true).toOption.map
      (fun d => (d.node? 4).map (·.offset.toNat)) = some (some 11) := by
    decide +kernel
  have hsmall : "<r>\n  <é/><b/>\n</r>".toUTF8.toList.length < 2 ^ 32 := by decide +kernel
  have hpos : linePosition "<r>\n  <é/><b/>\n</r>".toUTF8.toList 11 = (2, 7) := by decide +kernel
  cases hd : Document.parse "<r>\n  <é/><b/>\n</r>".toUTF8.toList true with
  | error e =>
    rw [hd] at hrun
    cases hrun
  | ok d =>
    rw [hd] at hrun
    simp only [Except.toOption, Option.map_some, Option.some.injEq, Option.map_eq_some_iff] at hrun
    obtain ⟨node, hnode, hoff⟩ := hrun
    obtain ⟨node', hnode', -, hown, s, hs, -, hline⟩ :=
      (Document.line_positions hd hsmall).1 4 (Document.lt_size_of_node? hnode)
    obtain rfl : node' = node := Option.some.inj (hnode'.symm.trans hnode)
    have hat : d.line? 4 = some (2, 7) := by
      rw [Document.line?_of_parse hd, show d.nodes[4]? = some node' from hnode, Option.map_some,
        hoff, hpos]
    exact ⟨d, rfl, hsmall, hat, node', hnode, hoff, hown (by decide), s, hs, hline⟩

end XmlPointer
