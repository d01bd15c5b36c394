import Mathlib
import XmlPointer.Stream.NodeReader
import XmlPointer.Proofs.Build

/-! # A node reader streams the subtree it is bound to

The reader is a loop over a cursor bound to its top node, while the document printer recurses
over child lists. `Document.walk` states the stream the way the printer recurses: an element
with children gives its start token, its children's tokens and its end token, an element
without children one empty start token, the document node its children's tokens and any other
node its one token, each with the node and its depth below the top. On a built document the
loop gives exactly that walk, one read per token; the tokens written one after another are the
node's XML; and once drained the reader stays at its end. -/
namespace XmlPointer

open Document

namespace Document

/-- The tokens of the subtree of `id` in pre-order, `depth` levels below the top, descending at
most `fuel` levels. -/
def walk (d : Document) (top : Nat) : Nat → Nat → Nat → List Emitted
  | 0, _, _ => []
  | fuel + 1, id, depth =>
    match d.node? id with
    | none => []
    | some n =>
      match n.kind with
      | .document => (d.children id).flatMap fun c => d.walk top fuel c depth
      | .element =>
        if (d.children id).isEmpty then [⟨d.startToken top id true, depth, id⟩]
        else ⟨d.startToken top id false, depth, id⟩ ::
          ((d.children id).flatMap fun c => d.walk top fuel c (depth + 1)) ++
          [⟨.finish n.name, depth, id⟩]
      | .text => [⟨.text n.value, depth, id⟩]
      | .cdata => [⟨.cdata n.value, depth, id⟩]
      | .comment => [⟨.comment n.value, depth, id⟩]
      | .instruction => [⟨.instruction n.name n.value, depth, id⟩]

def subtreeTokens (d : Document) (top : Nat) : List Emitted :=
  d.walk top (d.size + 1) top 0

end Document

/-- Reading again and again with `next` from `r` gives the outputs `es`, each made by `record`
from a token and the reader its read leaves, and leaves the reader at `r'`. -/
inductive Reads {σ τ ε : Type} (next : σ → Option τ × σ) (record : τ → σ → ε) :
    σ → List ε → σ → Prop
  | refl (r : σ) : Reads next record r [] r
  | read {r r₁ r' : σ} {t : τ} {es : List ε} :
      next r = (some t, r₁) → Reads next record r₁ es r' →
      Reads next record r (record t r₁ :: es) r'

namespace Reads

variable {σ τ ε : Type} {next : σ → Option τ × σ} {record : τ → σ → ε} {r r₀ r₁ r₂ : σ}
  {es es₂ : List ε}

theorem trans (h₁ : Reads next record r es r₁) (h₂ : Reads next record r₁ es₂ r₂) :
    Reads next record r (es ++ es₂) r₂ := by
  induction h₁ with
  | refl => exact h₂
  | read hr _ ih => exact .read hr (ih h₂)

theorem of_next_eq {r'' : σ} (hr : next r = next r₀) (h : Reads next record r₀ es r')
    (hend : next r' = (none, r'')) : ∃ r₁, Reads next record r es r₁ ∧ next r₁ = (none, r'') := by
  cases h with
  | refl => exact ⟨r, .refl _, hr.trans hend⟩
  | read h₀ hrest => exact ⟨r', .read (hr.trans h₀) hrest, hend⟩

theorem loop_eq {r'' : σ} (loop : Nat → σ → List ε × σ)
    (hsome : ∀ n r t r₁, next r = (some t, r₁) →
      loop (n + 1) r = (record t r₁ :: (loop n r₁).1, (loop n r₁).2))
    (hnone : ∀ n r r₁, next r = (none, r₁) → loop (n + 1) r = ([], r₁))
    (h : Reads next record r es r') (hend : next r' = (none, r'')) :
    ∀ n, es.length < n → loop n r = (es, r'') := by
  induction h with
  | refl =>
    intro n hn
    obtain ⟨m, rfl⟩ : ∃ m, n = m + 1 := ⟨n - 1, by simp at hn; omega⟩
    exact hnone m _ _ hend
  | read hr _ ih =>
    intro n hn
    obtain ⟨m, rfl⟩ : ∃ m, n = m + 1 := ⟨n - 1, by simp at hn; omega⟩
    simp only [List.length_cons, Nat.add_lt_add_iff_right] at hn
    rw [hsome m _ _ _ hr, ih hend m hn]

theorem map {σ' ε' : Type} (next' : σ' → Option τ × σ') (record' : τ → σ' → ε') (g : σ → σ')
    (f : ε → ε') (hnext : ∀ r t r₁, next r = (some t, r₁) → next' (g r) = (some t, g r₁))
    (hrecord : ∀ t r, record' t (g r) = f (record t r)) (h : Reads next record r es r') :
    Reads next' record' (g r) (es.map f) (g r') := by
  induction h with
  | refl => exact .refl _
  | read hr _ ih =>
    rw [List.map_cons, ← hrecord]
    exact .read (hnext _ _ _ hr) ih

end Reads

namespace NodeReader

/-- Reading from a node reader, each token with the depth and node the read leaves the reader
with. -/
abbrev Reads : NodeReader → List Emitted → NodeReader → Prop :=
  XmlPointer.Reads NodeReader.read fun t r₁ => ⟨t, r₁.depth, r₁.lastNode.getD r₁.top⟩

theorem drainWithin_of_reads {r r' r'' : NodeReader} {es : List Emitted} (h : Reads r es r')
    (hend : r'.read = (none, r'')) : ∀ n, es.length < n → r.drainWithin n = (es, r'') :=
  XmlPointer.Reads.loop_eq drainWithin (fun _ _ _ _ hr => by simp [drainWithin, hr])
    (fun _ _ _ hr => by simp [drainWithin, hr]) h hend

/-! ## One turn of the loop -/

section Turns

variable {d : Document} {top c c' p k b dep : Nat} {ln : Option Nat} {s s' : ReaderStep}
  {r r' : NodeReader} {t : StreamToken}

theorem readWithin_of_turn_token {n : Nat} (h : r.turn = .token t r') :
    r.readWithin (n + 1) = (some t, r') := by
  simp [readWithin, h]

theorem read_of_turn_token (h : r.turn = .token t r') : r.read = (some t, r') :=
  readWithin_of_turn_token h

theorem read_of_turn_stop (h : r.turn = .stop r') : r.read = (none, r') := by
  simp [read, readWithin, h]

theorem advance_step (s' : ReaderStep) : advance ⟨d, ⟨top, c, k⟩, s, b, dep, ln⟩ =
    advance ⟨d, ⟨top, c, k⟩, s', b, dep, ln⟩ := by
  cases hs : SubtreeCursor.nextSibling? d ⟨top, c, k⟩ <;>
    cases hp : SubtreeCursor.parent? d ⟨top, c, k⟩ <;> simp [advance, hs, hp]

theorem advance_of_nextSibling (hc : c ≠ top) (hs : d.nextSibling? c = some c') :
    advance ⟨d, ⟨top, c, k⟩, s, b, dep, ln⟩ = ⟨d, ⟨top, c', k⟩, .enter, b, dep, ln⟩ := by
  simp [advance, SubtreeCursor.nextSibling?, SubtreeCursor.isAtRoot, hc, hs]

theorem advance_of_parent (hc : c ≠ top) (hs : d.nextSibling? c = none)
    (hp : d.parent? c = some p) :
    advance ⟨d, ⟨top, c, k⟩, s, b, dep, ln⟩ = ⟨d, ⟨top, p, k - 1⟩, .leave, b, dep, ln⟩ := by
  simp [advance, SubtreeCursor.nextSibling?, SubtreeCursor.parent?, SubtreeCursor.isAtRoot, hc, hs,
    hp]

theorem advance_at_top : advance ⟨d, ⟨top, top, k⟩, s, b, dep, ln⟩ =
    ⟨d, ⟨top, top, k⟩, .done, b, dep, ln⟩ := by
  simp [advance, SubtreeCursor.nextSibling?, SubtreeCursor.parent?, SubtreeCursor.isAtRoot]

theorem advance_depth : (advance ⟨d, ⟨top, c, k⟩, s, b, dep, ln⟩).depth = dep := by
  simp only [advance]
  split <;> (try split) <;> rfl

theorem advance_lastNode : (advance ⟨d, ⟨top, c, k⟩, s, b, dep, ln⟩).lastNode = ln := by
  simp only [advance]
  split <;> (try split) <;> rfl

theorem advance_top : (advance ⟨d, ⟨top, c, k⟩, s, b, dep, ln⟩).top = top := by
  simp only [advance, NodeReader.top, SubtreeCursor.nextSibling?, SubtreeCursor.parent?]
  split <;> (try split) <;> simp_all <;> grind

theorem turn_start (cur : SubtreeCursor) : turn ⟨d, cur, .start, b, dep, ln⟩ =
    .next ⟨d, ⟨cur.root, cur.root, 0⟩, .enter, b, dep, ln⟩ := by
  simp [turn, SubtreeCursor.toRoot, SubtreeCursor.atRoot]

theorem turn_done (cur : SubtreeCursor) : turn ⟨d, cur, .done, b, dep, ln⟩ =
    .stop ⟨d, cur, .done, b, dep, ln⟩ := rfl

theorem turn_enter_empty (hk : d.kind? c = some .element) (hc : d.firstChild? c = none) :
    turn ⟨d, ⟨top, c, k⟩, .enter, b, dep, ln⟩ =
      .token (d.startToken top c true) (advance ⟨d, ⟨top, c, k⟩, .enter, b, k - b, some c⟩) := by
  simp [turn, hk, SubtreeCursor.firstChild?, hc, emit, NodeReader.top]

theorem turn_enter_parent (hk : d.kind? c = some .element) (hc : d.firstChild? c = some c') :
    turn ⟨d, ⟨top, c, k⟩, .enter, b, dep, ln⟩ =
      .token (d.startToken top c false) ⟨d, ⟨top, c', k + 1⟩, .enter, b, k - b, some c⟩ := by
  simp [turn, hk, SubtreeCursor.firstChild?, hc, emit, NodeReader.top]

theorem turn_enter_leaf (hk : d.kind? c ≠ some .element) (hd : d.kind? c ≠ some .document)
    (ht : d.leafToken? c = some t) :
    turn ⟨d, ⟨top, c, k⟩, .enter, b, dep, ln⟩ =
      .token t (advance ⟨d, ⟨top, c, k⟩, .enter, b, k - b, some c⟩) := by
  cases hkc : d.kind? c with
  | none => simp [leafToken?, hkc] at ht
  | some kind =>
    cases kind <;> simp_all [turn, emit]

theorem turn_enter_document (hk : d.kind? c = some .document) (hc : d.firstChild? c = some c') :
    turn ⟨d, ⟨top, c, k⟩, .enter, b, dep, ln⟩ = .next ⟨d, ⟨top, c', k + 1⟩, .enter, b, dep, ln⟩ := by
  simp [turn, hk, SubtreeCursor.firstChild?, hc]

theorem turn_enter_document_empty (hk : d.kind? c = some .document) (hc : d.firstChild? c = none) :
    turn ⟨d, ⟨top, c, k⟩, .enter, b, dep, ln⟩ = .next (advance ⟨d, ⟨top, c, k⟩, .enter, b, dep, ln⟩) := by
  simp [turn, hk, SubtreeCursor.firstChild?, hc]

theorem turn_enter_missing (hk : d.kind? c = none) :
    turn ⟨d, ⟨top, c, k⟩, .enter, b, dep, ln⟩ = .next ⟨d, ⟨top, c, k⟩, .done, b, dep, ln⟩ := by
  simp [turn, hk]

theorem read_done (cur : SubtreeCursor) :
    read ⟨d, cur, .done, b, dep, ln⟩ = (none, ⟨d, cur, .done, b, dep, ln⟩) :=
  read_of_turn_stop (turn_done cur)

theorem turn_leave_element (hk : d.kind? c = some .element) :
    turn ⟨d, ⟨top, c, k⟩, .leave, b, dep, ln⟩ =
      .token (.finish ((d.name? c).getD "")) (advance ⟨d, ⟨top, c, k⟩, .leave, b, k - b, some c⟩) := by
  simp [turn, hk, emit]

theorem turn_leave_document (hk : d.kind? c = some .document) :
    turn ⟨d, ⟨top, c, k⟩, .leave, b, dep, ln⟩ = .next (advance ⟨d, ⟨top, c, k⟩, .leave, b, dep, ln⟩) := by
  simp [turn, hk]

theorem exists_turn_enter (hc : c < d.size) (hd : d.kind? c ≠ some .document) :
    ∃ t r', turn ⟨d, ⟨top, c, k⟩, .enter, b, dep, ln⟩ = .token t r' := by
  obtain ⟨n, hn⟩ := exists_node?_of_lt hc
  have hkc : d.kind? c = some n.kind := by simp [kind?, hn]
  cases hk : n.kind with
  | document => simp_all
  | element =>
    cases hcs : d.firstChild? c with
    | none => exact ⟨_, _, turn_enter_empty (hk ▸ hkc) hcs⟩
    | some c₁ => exact ⟨_, _, turn_enter_parent (hk ▸ hkc) hcs⟩
  | text | cdata | comment | instruction =>
    obtain ⟨t, ht⟩ : ∃ t, d.leafToken? c = some t := by simp [leafToken?, hkc, hk]
    exact ⟨t, _, turn_enter_leaf (by simp [hkc, hk]) (by simp [hkc, hk]) ht⟩

theorem turn_token_lastNode (ht : r.turn = .token t r') : r'.lastNode = some r.cursor.current := by
  have hadv : ∀ q : NodeReader, q.advance.lastNode = q.lastNode := fun q => by
    simp only [advance]
    split <;> (try split) <;> rfl
  obtain ⟨d, cur, step, b, dep, ln⟩ := r
  cases step with
  | start | done => simp [turn] at ht
  | leave =>
    by_cases hk : d.kind? cur.current = some .element
    · simp only [turn, hk, if_true, Turn.token.injEq] at ht
      obtain ⟨-, rfl⟩ := ht
      simp [hadv, emit]
    · simp [turn, hk] at ht
  | enter =>
    cases hk : d.kind? cur.current with
    | none => simp [turn, hk] at ht
    | some kind =>
      cases kind <;> simp only [turn, hk] at ht <;> split at ht <;>
        first
        | (simp only [Turn.token.injEq] at ht; obtain ⟨-, rfl⟩ := ht; simp [hadv, emit])
        | simp at ht

theorem read_lastNode (hr : r.read = (some t, r')) : ∃ n, r'.lastNode = some n := by
  unfold read at hr
  generalize r.doc.size + 3 = n at hr
  induction n generalizing r with
  | zero => simp [readWithin] at hr
  | succ n ih =>
    simp only [readWithin] at hr
    split at hr
    · next ht =>
      cases hr
      exact ⟨_, turn_token_lastNode ht⟩
    · exact ih hr
    · simp at hr

theorem reads_token {es : List Emitted}
    (hturn : turn ⟨d, ⟨top, c, k⟩, s, b, dep, ln⟩ =
      .token t (advance ⟨d, ⟨top, c, k⟩, s, b, k - b, some c⟩))
    (hrest : Reads (advance ⟨d, ⟨top, c, k⟩, .enter, b, k - b, some c⟩) es r') :
    Reads ⟨d, ⟨top, c, k⟩, s, b, dep, ln⟩ (⟨t, k - b, c⟩ :: es) r' := by
  rw [advance_step .enter] at hturn
  have := Reads.read (read_of_turn_token hturn) hrest
  rwa [advance_depth, advance_lastNode, advance_top, Option.getD_some] at this

end Turns

end NodeReader

/-! ## Child lists of a built arena -/

/-- Below an ancestor of `b` lies `b` itself and all that lies below `b`. -/
theorem Document.Ancestor.trans_eq_or {d : Document} {a b c : Nat} (hab : Document.Ancestor d a b)
    (hbc : c = b ∨ Document.Ancestor d b c) : Document.Ancestor d a c := by
  rcases hbc with rfl | hbc
  · exact hab
  · exact hab.trans hbc

namespace Document.Arena

variable {d : Document} (h : d.Arena)
include h

theorem lt_of_mem_children {p c : Nat} (hc : c ∈ d.children p) : p < c :=
  h.parent_lt (h.mem_children.mp hc)

theorem lt_size_of_mem_children {p c : Nat} (hc : c ∈ d.children p) : c < d.size :=
  lt_size_of_parent? (h.mem_children.mp hc)

theorem length_ancestors_of_mem_children {p c : Nat} (hc : c ∈ d.children p) :
    (d.ancestors c).length = (d.ancestors p).length + 1 := by
  rw [h.ancestors_of_parent? (h.mem_children.mp hc), List.length_cons]

theorem kind_ne_document_of_mem_children {p c : Nat} (hc : c ∈ d.children p) :
    d.kind? c ≠ some .document := by
  obtain ⟨n, hn⟩ := exists_node?_of_lt (h.lt_size_of_mem_children hc)
  obtain ⟨-, -, -, -, -, -, hk, -⟩ := h.linked c n hn (Nat.lt_of_le_of_lt (Nat.zero_le _)
    (h.lt_of_mem_children hc))
  simpa [kind?, hn] using hk

theorem firstChild?_eq_head? (p : Nat) : d.firstChild? p = (d.children p).head? := by
  rw [h.children_eq]
  exact (h.links p).first

theorem nextSibling?_getElem_children {p j : Nat} (hj : j < (d.children p).length) :
    d.nextSibling? (d.children p)[j] = (d.children p)[j + 1]? := by
  simp only [h.children_eq] at hj ⊢
  exact (h.links p).next j hj

theorem ancestor_of_mem_children {top p c : Nat} (hc : c ∈ d.children p)
    (hp : p = top ∨ Ancestor d top p) : Ancestor d top c := by
  rcases hp with rfl | hp
  · exact .parent (h.mem_children.mp hc)
  · exact .up (h.mem_children.mp hc) hp

theorem lt_of_ancestor_of_siblings {p i j m : Nat} (hij : i < j) (hj : j < (d.children p).length)
    (hm : Ancestor d (d.children p)[i] m) : m < (d.children p)[j] := by
  have hi : i < (d.children p).length := by omega
  have hlt : (d.children p)[i] < (d.children p)[j] :=
    List.pairwise_iff_getElem.mp (h.children_sorted p) i j hi hj hij
  refine Nat.lt_of_not_le fun hle => ?_
  have hanc : Ancestor d (d.children p)[i] (d.children p)[j] :=
    h.contiguous _ _ _ hlt hle hm
  have hpj := h.mem_children.mp (List.getElem_mem hj)
  have hpi := h.lt_of_mem_children (List.getElem_mem hi)
  cases hanc with
  | parent hq =>
    have := Option.some.inj (hpj.symm.trans hq)
    omega
  | up hq hup =>
    have := Option.some.inj (hpj.symm.trans hq)
    subst this
    exact Nat.lt_irrefl _ (Nat.lt_trans (h.ancestor_lt hup) hpi)

end Document.Arena

/-! ## The loop walks the subtree -/

namespace NodeReader

section Walk

variable {d : Document} (h : d.Arena) {top b : Nat}
include h

theorem advance_child {p j k dep : Nat} {ln : Option Nat} {s : ReaderStep}
    (hp : p = top ∨ Ancestor d top p) (hj : j < (d.children p).length) :
    advance ⟨d, ⟨top, (d.children p)[j], k⟩, s, b, dep, ln⟩ =
      if hn : j + 1 < (d.children p).length then
        ⟨d, ⟨top, (d.children p)[j + 1], k⟩, .enter, b, dep, ln⟩
      else ⟨d, ⟨top, p, k - 1⟩, .leave, b, dep, ln⟩ := by
  have hne : (d.children p)[j] ≠ top :=
    Nat.ne_of_gt (h.ancestor_lt (h.ancestor_of_mem_children (List.getElem_mem hj) hp))
  have hnext := h.nextSibling?_getElem_children hj
  split
  · next hn => exact advance_of_nextSibling hne (by rw [hnext, List.getElem?_eq_getElem hn])
  · next hn =>
    exact advance_of_parent hne (by rw [hnext, List.getElem?_eq_none (by omega)])
      (h.mem_children.mp (List.getElem_mem hj))

theorem reads_children {p k : Nat} (hp : p = top ∨ Ancestor d top p) (g : Nat → List Emitted)
    (hg : ∀ c ∈ d.children p, ∀ dep ln, Reads ⟨d, ⟨top, c, k + 1⟩, .enter, b, dep, ln⟩ (g c)
      (advance ⟨d, ⟨top, c, k + 1⟩, .enter, b, k + 1 - b, some c⟩)) :
    ∀ n j (hj : j + n + 1 = (d.children p).length) dep ln, ∃ dep' ln',
      Reads ⟨d, ⟨top, (d.children p)[j], k + 1⟩, .enter, b, dep, ln⟩
        (((d.children p).drop j).flatMap g) ⟨d, ⟨top, p, k⟩, .leave, b, dep', ln'⟩
  | 0, j, hj, dep, ln => by
    have hjl : j < (d.children p).length := by omega
    have hrun := hg _ (List.getElem_mem hjl) dep ln
    rw [advance_child h hp hjl, dif_neg (by omega), Nat.add_sub_cancel] at hrun
    refine ⟨k + 1 - b, some (d.children p)[j], ?_⟩
    rw [List.drop_eq_getElem_cons hjl, List.drop_of_length_le (by omega)]
    simpa using hrun
  | n + 1, j, hj, dep, ln => by
    have hjl : j < (d.children p).length := by omega
    have hrun := hg _ (List.getElem_mem hjl) dep ln
    rw [advance_child h hp hjl, dif_pos (by omega)] at hrun
    obtain ⟨dep', ln', hrest⟩ := reads_children hp g hg n (j + 1) (by omega) _ _
    refine ⟨dep', ln', ?_⟩
    rw [List.drop_eq_getElem_cons hjl, List.flatMap_cons]
    exact hrun.trans hrest

/-- Entered on a node of the top's subtree other than the document node, the reader reads the
walk of the node's subtree and moves on from the node. The walk's fuel is enough because a
child's id exceeds its parent's. -/
theorem reads_walk : ∀ (f c k dep : Nat) (ln : Option Nat), (c = top ∨ Ancestor d top c) →
    c < d.size → d.size < f + c → b ≤ k → d.kind? c ≠ some .document →
    Reads ⟨d, ⟨top, c, k⟩, .enter, b, dep, ln⟩ (d.walk top f c (k - b))
      (advance ⟨d, ⟨top, c, k⟩, .enter, b, k - b, some c⟩)
  | 0, c, k, dep, ln, _, hc, hf, _, _ => absurd hf (by omega)
  | f + 1, c, k, dep, ln, hsub, hc, hf, hb, hd => by
    obtain ⟨n, hn⟩ := exists_node?_of_lt hc
    have hkc : d.kind? c = some n.kind := by simp [kind?, hn]
    cases hk : n.kind with
    | document => simp_all
    | element =>
      rw [hk] at hkc
      cases hcs : d.children c with
      | nil =>
        simp only [walk, hn, hk, hcs, List.isEmpty_nil, if_true]
        exact reads_token (turn_enter_empty hkc (by rw [h.firstChild?_eq_head?, hcs]; rfl))
          (.refl _)
      | cons c₁ cs =>
        simp only [walk, hn, hk, hcs, List.isEmpty_cons, Bool.false_eq_true, if_false]
        -- down to the first child, through all children, and back up to leave `c`
        have hchild : ∀ c' ∈ d.children c, ∀ dep ln,
            Reads ⟨d, ⟨top, c', k + 1⟩, .enter, b, dep, ln⟩ (d.walk top f c' (k + 1 - b))
              (advance ⟨d, ⟨top, c', k + 1⟩, .enter, b, k + 1 - b, some c'⟩) :=
          fun c' hc' dep ln => reads_walk f c' (k + 1) dep ln
            (.inr (h.ancestor_of_mem_children hc' hsub)) (h.lt_size_of_mem_children hc')
            (by have := h.lt_of_mem_children hc'; omega) (by omega)
            (h.kind_ne_document_of_mem_children hc')
        obtain ⟨dep', ln', hrun⟩ := reads_children h hsub _ hchild (cs.length) 0
          (by simp [hcs]) (k - b) (some c)
        simp only [hcs, List.getElem_cons_zero, List.drop_zero] at hrun
        have hname : (d.name? c).getD "" = n.name := by simp [name?, hn, hk]
        have hleave : Reads ⟨d, ⟨top, c, k⟩, .leave, b, dep', ln'⟩
            [⟨.finish ((d.name? c).getD ""), k - b, c⟩]
            (advance ⟨d, ⟨top, c, k⟩, .enter, b, k - b, some c⟩) :=
          reads_token (turn_leave_element hkc) (.refl _)
        rw [hname] at hleave
        have hfirst : Reads ⟨d, ⟨top, c, k⟩, .enter, b, dep, ln⟩ _ _ :=
          Reads.read (read_of_turn_token (turn_enter_parent hkc
            (by rw [h.firstChild?_eq_head?, hcs]; rfl))) (hrun.trans hleave)
        simpa [Nat.sub_add_comm hb] using hfirst
    | text | cdata | comment | instruction =>
      rw [hk] at hkc
      simp only [walk, hn, hk]
      exact reads_token (turn_enter_leaf (by simp [hkc]) (by simp [hkc])
        (by simp [leafToken?, hkc, value?, name?, hn, hk])) (.refl _)

theorem length_children_le {p u : Nat} (g : Nat → List Emitted)
    (hg : ∀ c ∈ d.children p, ∀ v, c < v → (∀ m, Ancestor d c m → m < v) →
      (g c).length ≤ 2 * (v - c))
    (hu : ∀ m, Ancestor d p m → m < u) :
    ∀ n j (hj : j + n + 1 = (d.children p).length),
      (((d.children p).drop j).flatMap g).length ≤ 2 * (u - (d.children p)[j])
  | 0, j, hj => by
    have hjl : j < (d.children p).length := by omega
    have hcm := List.getElem_mem hjl
    have hpc : Ancestor d p (d.children p)[j] := .parent (h.mem_children.mp hcm)
    rw [List.drop_eq_getElem_cons hjl, List.drop_of_length_le (by omega), List.flatMap_cons,
      List.flatMap_nil, List.append_nil]
    exact hg _ hcm u (hu _ hpc) fun m hm => hu m (hpc.trans hm)
  | n + 1, j, hj => by
    have hjl : j < (d.children p).length := by omega
    have hjl' : j + 1 < (d.children p).length := by omega
    have hcm := List.getElem_mem hjl
    have hnext : (d.children p)[j] < (d.children p)[j + 1] :=
      List.pairwise_iff_getElem.mp (h.children_sorted p) j (j + 1) hjl hjl' (by omega)
    have hfirst := hg _ hcm _ hnext fun m hm => h.lt_of_ancestor_of_siblings (by omega) hjl' hm
    have hrest := length_children_le g hg hu n (j + 1) (by omega)
    have hlast : (d.children p)[j + 1] < u :=
      hu _ (.parent (h.mem_children.mp (List.getElem_mem hjl')))
    rw [List.drop_eq_getElem_cons hjl, List.flatMap_cons, List.length_append]
    omega

/-- The walk of a subtree lying below `u` has at most two tokens per id from its node to `u`. -/
theorem length_walk_le : ∀ f c δ u, c < u → (∀ m, Ancestor d c m → m < u) →
    (d.walk top f c δ).length ≤ 2 * (u - c)
  | 0, _, _, _, _, _ => by simp [walk]
  | f + 1, c, δ, u, hcu, hu => by
    cases hn : d.node? c with
    | none => simp [walk, hn]
    | some n =>
      -- the children's walks fit between the first child and `u`
      have hsum : ∀ δ', ((d.children c).flatMap fun c' => d.walk top f c' δ').length ≤
          2 * (u - c) - 2 := by
        intro δ'
        cases hcs : d.children c with
        | nil => simp
        | cons c₁ cs =>
          have hbound := length_children_le h (fun c' => d.walk top f c' δ')
            (fun c' _ v hv hm => length_walk_le f c' δ' v hv hm) hu cs.length 0 (by simp [hcs])
          have hc₁ : c < c₁ := h.lt_of_mem_children (hcs ▸ List.mem_cons_self)
          simp only [hcs, List.drop_zero, List.getElem_cons_zero] at hbound
          omega
      cases hk : n.kind with
      | document =>
        simp only [walk, hn, hk]
        exact Nat.le_trans (hsum δ) (Nat.sub_le _ _)
      | element =>
        simp only [walk, hn, hk]
        split
        · simp only [List.length_singleton]
          omega
        · simp only [List.length_cons, List.length_append, List.length_nil]
          have := hsum (δ + 1)
          omega
      | text | cdata | comment | instruction =>
        simp only [walk, hn, hk, List.length_singleton]
        omega

/-- From its start a reader reads the tokens of its top's subtree; its next read gives none and
leaves it at its end, where it stays. -/
theorem reads_new (top : Nat) : ∃ r r', Reads (new d top) (d.subtreeTokens top) r ∧
    r.read = (none, r') ∧ r'.step = .done ∧ r'.read = (none, r') := by
  by_cases htop : top < d.size
  · obtain ⟨n, hn⟩ := exists_node?_of_lt htop
    have hkn : d.kind? top = some n.kind := by simp [kind?, hn]
    by_cases hd : n.kind = .document
    · -- the document node: its children one after another, then one read to leave it
      have h0 : top = 0 := by
        by_contra hne
        obtain ⟨-, -, -, -, -, -, hk, -⟩ := h.linked top n hn (Nat.pos_of_ne_zero hne)
        exact hk hd
      subst h0
      rw [hd] at hkn
      have hnew : new d 0 = ⟨d, ⟨0, 0, 0⟩, .start, 1, 0, none⟩ := by
        simp [new, hkn, SubtreeCursor.atRoot]
      have htokens : d.subtreeTokens 0 = (d.children 0).flatMap fun c => d.walk 0 d.size c 0 := by
        simp [subtreeTokens, walk, hn, hd]
      rw [hnew, htokens]
      cases hcs : d.children 0 with
      | nil =>
        refine ⟨_, ⟨d, ⟨0, 0, 0⟩, .done, 1, 0, none⟩, .refl _, ?_, rfl, read_done _⟩
        simp [read, readWithin, turn_start,
          turn_enter_document_empty hkn (by rw [h.firstChild?_eq_head?, hcs]; rfl), advance_at_top,
          turn_done]
      | cons c₁ cs =>
        have hchild : ∀ c ∈ d.children 0, ∀ dep ln,
            Reads ⟨d, ⟨0, c, 0 + 1⟩, .enter, 1, dep, ln⟩ (d.walk 0 d.size c 0)
              (advance ⟨d, ⟨0, c, 0 + 1⟩, .enter, 1, 0 + 1 - 1, some c⟩) :=
          fun c hc dep ln => reads_walk h d.size c 1 dep ln
            (.inr (h.ancestor_of_mem_children hc (.inl rfl))) (h.lt_size_of_mem_children hc)
            (by have := h.lt_of_mem_children hc; omega) le_rfl
            (h.kind_ne_document_of_mem_children hc)
        obtain ⟨dep', ln', hrun⟩ := reads_children h (.inl rfl) _ hchild cs.length 0
          (by simp [hcs]) 0 none
        simp only [hcs, List.getElem_cons_zero, List.drop_zero] at hrun
        have hc₁ : c₁ ∈ d.children 0 := hcs ▸ List.mem_cons_self
        obtain ⟨t, r₁, hturn⟩ : ∃ t r', turn ⟨d, ⟨0, c₁, 1⟩, .enter, 1, 0, none⟩ = .token t r' :=
          exists_turn_enter (h.lt_size_of_mem_children hc₁) (h.kind_ne_document_of_mem_children hc₁)
        have hfirst : read ⟨d, ⟨0, 0, 0⟩, .start, 1, 0, none⟩ =
            read ⟨d, ⟨0, c₁, 1⟩, .enter, 1, 0, none⟩ := by
          rw [read_of_turn_token hturn]
          simp [read, readWithin, turn_start,
            turn_enter_document hkn (by rw [h.firstChild?_eq_head?, hcs]; rfl), hturn]
        have hlast : read ⟨d, ⟨0, 0, 0⟩, .leave, 1, dep', ln'⟩ =
            (none, ⟨d, ⟨0, 0, 0⟩, .done, 1, dep', ln'⟩) := by
          simp [read, readWithin, turn_leave_document hkn, advance_at_top, turn_done]
        obtain ⟨r₂, hreads, hend⟩ := Reads.of_next_eq hfirst hrun hlast
        exact ⟨r₂, _, hreads, hend, rfl, read_done _⟩
    · -- any other node: its own walk, after which the reader is at its end
      have hkd : d.kind? top ≠ some .document := by simp [hkn, hd]
      have hnew : new d top = ⟨d, ⟨top, top, 0⟩, .start, 0, 0, none⟩ := by
        simp [new, hkd, SubtreeCursor.atRoot]
      have hwalk := reads_walk h (b := 0) (d.size + 1) top 0 0 none (.inl rfl) htop (by omega)
        le_rfl hkd
      rw [advance_at_top] at hwalk
      obtain ⟨t, r₁, hturn⟩ : ∃ t r', turn ⟨d, ⟨top, top, 0⟩, .enter, 0, 0, none⟩ = .token t r' :=
        exists_turn_enter htop hkd
      have hfirst : read ⟨d, ⟨top, top, 0⟩, .start, 0, 0, none⟩ =
          read ⟨d, ⟨top, top, 0⟩, .enter, 0, 0, none⟩ := by
        rw [read_of_turn_token hturn]
        simp [read, readWithin, turn_start, hturn]
      rw [hnew]
      obtain ⟨r₂, hreads, hend⟩ := Reads.of_next_eq hfirst hwalk (read_done _)
      exact ⟨r₂, _, hreads, hend, rfl, read_done _⟩
  · -- no node: nothing to read
    have hn : d.node? top = none := by
      simp only [node?, size] at *
      exact Array.getElem?_eq_none (by omega)
    have hk : d.kind? top = none := by simp [kind?, hn]
    have hnew : new d top = ⟨d, ⟨top, top, 0⟩, .start, 0, 0, none⟩ := by
      simp [new, hk, SubtreeCursor.atRoot]
    have htokens : d.subtreeTokens top = [] := by simp [subtreeTokens, walk, hn]
    rw [hnew, htokens]
    refine ⟨_, ⟨d, ⟨top, top, 0⟩, .done, 0, 0, none⟩, .refl _, ?_, rfl, read_done _⟩
    simp [read, readWithin, turn_start, turn_enter_missing hk, turn_done]

theorem length_subtreeTokens_le (top : Nat) : (d.subtreeTokens top).length ≤ 2 * d.size := by
  by_cases htop : top < d.size
  · have : (d.walk top (d.size + 1) top 0).length ≤ 2 * (d.size - top) :=
      length_walk_le h (d.size + 1) top 0 d.size htop fun m hm => by
        obtain ⟨n, hn⟩ := hm.node?
        exact lt_size_of_node? hn
    exact Nat.le_trans this (by omega)
  · have hn : d.node? top = none := by
      simp only [node?, size] at *
      exact Array.getElem?_eq_none (by omega)
    simp [subtreeTokens, walk, hn]

theorem drain_new (top : Nat) : ∃ r', (new d top).drain = (d.subtreeTokens top, r') ∧
    r'.step = .done ∧ r'.read = (none, r') := by
  obtain ⟨r, r', hreads, hlast, hdone, hend⟩ := reads_new h top
  refine ⟨r', drainWithin_of_reads hreads hlast _ ?_, hdone, hend⟩
  have hlen := length_subtreeTokens_le h top
  simp only [new]
  omega

/-- The depth a walk records for each token is the count of its node's ancestors below the
walk's node, counted from the walk's starting depth, and each token's node is in that node's
subtree. -/
theorem walk_depth : ∀ f c δ, c < d.size → d.kind? c ≠ some .document → ∀ e ∈ d.walk top f c δ,
    e.node < d.size ∧ (d.ancestors e.node).length + δ = (d.ancestors c).length + e.depth ∧
      (e.node = c ∨ Ancestor d c e.node)
  | 0, _, _, _, _ => by simp [walk]
  | f + 1, c, δ, hc, hd => by
    obtain ⟨n, hn⟩ := exists_node?_of_lt hc
    -- the tokens of `c` itself
    have hself : ∀ e : Emitted, e.node = c → e.depth = δ → e.node < d.size ∧
        (d.ancestors e.node).length + δ = (d.ancestors c).length + e.depth ∧
          (e.node = c ∨ Ancestor d c e.node) := by
      intro e he hδ
      rw [he, hδ]
      exact ⟨hc, rfl, .inl rfl⟩
    -- the tokens of a child's subtree, one level further down
    have hkids : ∀ e ∈ (d.children c).flatMap (fun c' => d.walk top f c' (δ + 1)),
        e.node < d.size ∧ (d.ancestors e.node).length + δ = (d.ancestors c).length + e.depth ∧
          (e.node = c ∨ Ancestor d c e.node) := by
      intro e he
      obtain ⟨c', hc', he'⟩ := List.mem_flatMap.mp he
      obtain ⟨hlt, hrel, hsub⟩ := walk_depth f c' (δ + 1) (h.lt_size_of_mem_children hc')
        (h.kind_ne_document_of_mem_children hc') e he'
      have hlen := h.length_ancestors_of_mem_children hc'
      have hpar : Ancestor d c c' := .parent (h.mem_children.mp hc')
      exact ⟨hlt, by omega, .inr (hpar.trans_eq_or hsub)⟩
    intro e he
    cases hk : n.kind with
    | document => simp [kind?, hn, hk] at hd
    | element =>
      simp only [walk, hn, hk] at he
      split at he
      · simp only [List.mem_singleton] at he
        exact hself e (by rw [he]) (by rw [he])
      · simp only [List.mem_append, List.mem_cons, List.not_mem_nil, or_false] at he
        rcases he with (he | he) | he
        · exact hself e (by rw [he]) (by rw [he])
        · exact hkids e he
        · exact hself e (by rw [he]) (by rw [he])
    | text | cdata | comment | instruction =>
      simp only [walk, hn, hk, List.mem_singleton] at he
      exact hself e (by rw [he]) (by rw [he])

theorem subtreeTokens_depth (top : Nat) : ∀ e ∈ d.subtreeTokens top, ∃ nt,
    d.node? top = some nt ∧ e.node < d.size ∧ (d.ancestors e.node).length =
      (d.ancestors top).length + e.depth + (if nt.kind = .document then 1 else 0) ∧
    (e.node = top ∨ Ancestor d top e.node) := by
  intro e he
  cases hn : d.node? top with
  | none => simp [subtreeTokens, walk, hn] at he
  | some nt =>
    have htop := lt_size_of_node? hn
    by_cases hk : nt.kind = .document
    · -- a token of a child's subtree, one level below the document node
      simp only [subtreeTokens, walk, hn, hk] at he
      obtain ⟨c, hc, he'⟩ := List.mem_flatMap.mp he
      obtain ⟨hlt, hrel, hsub⟩ := walk_depth h d.size c 0 (h.lt_size_of_mem_children hc)
        (h.kind_ne_document_of_mem_children hc) e he'
      have hlen := h.length_ancestors_of_mem_children hc
      have hpar : Ancestor d top c := .parent (h.mem_children.mp hc)
      exact ⟨nt, rfl, hlt, by simp only [hk, if_true]; omega, .inr (hpar.trans_eq_or hsub)⟩
    · obtain ⟨hlt, hrel, hsub⟩ := walk_depth h (d.size + 1) top 0 htop
        (by simp [kind?, hn, hk]) e he
      exact ⟨nt, rfl, hlt, by simp only [hk, if_false]; omega, hsub⟩

end Walk

end NodeReader

namespace Document

theorem join_flatMap {α : Type} (l : List α) (g : α → List String) :
    String.join (l.flatMap g) = String.join (l.map fun x => String.join (g x)) := by
  induction l with
  | nil => rfl
  | cons x l ih => simp [List.flatMap_cons, String.join_append, ih]

section Xml

variable {d : Document} (h : d.Arena) {top : Nat}
include h

/-- Written one after another, the tokens of a walk are the XML its node has in context, for
every node of the top's subtree but an element at the top, whose start tag also carries the
declarations it inherits. -/
theorem xml_walk : ∀ f id δ, top ≤ id → (id = top → d.kind? id ≠ some .element) →
    String.join ((d.walk top f id δ).map (·.token.xml)) = d.contentXml f id
  | 0, _, _, _, _ => by simp [walk, contentXml]
  | f + 1, id, δ, hle, hnot => by
    cases hn : d.node? id with
    | none => simp [walk, contentXml, hn]
    | some n =>
      -- a child's id exceeds its parent's, so no child is the top
      have hkids : ∀ δ', String.join
          (((d.children id).flatMap fun c => d.walk top f c δ').map (·.token.xml)) =
            String.join ((d.children id).map (d.contentXml f)) := by
        intro δ'
        rw [List.map_flatMap, join_flatMap]
        congr 1
        refine List.map_congr_left fun c hc => ?_
        have hlt := h.lt_of_mem_children hc
        exact xml_walk f c δ' (by omega) fun heq => by omega
      cases hk : n.kind with
      | document =>
        simp only [walk, contentXml, hn, hk]
        exact hkids δ
      | element =>
        have hne : id ≠ top := fun heq => hnot heq (by simp [kind?, hn, hk])
        have hstart : ∀ e, (d.startToken top id e).xml = tagText n.name (d.attributePairs id) e := by
          intro e
          simp [startToken, StreamToken.xml, hne, name?, hn, hk]
        simp only [walk, contentXml, hn, hk]
        split
        · simp [hstart]
        · rw [List.map_append, List.map_cons, String.join_append, String.join_cons, hkids (δ + 1),
            hstart]
          simp [StreamToken.xml, String.append_assoc]
      | text | cdata | comment | instruction => simp [walk, contentXml, hn, hk, StreamToken.xml]

theorem xml_subtreeTokens (top : Nat) :
    String.join ((d.subtreeTokens top).map (·.token.xml)) = d.toXml top := by
  cases hn : d.node? top with
  | none => simp [subtreeTokens, walk, toXml, hn]
  | some n =>
    by_cases hk : n.kind = .element
    · -- the top element: its start tag carries the declarations it inherits
      have hkids : String.join
          (((d.children top).flatMap fun c => d.walk top d.size c 1).map (·.token.xml)) =
            String.join ((d.children top).map (d.contentXml d.size)) := by
        rw [List.map_flatMap, join_flatMap]
        congr 1
        refine List.map_congr_left fun c hc => ?_
        have hlt := h.lt_of_mem_children hc
        exact xml_walk h d.size c 1 (by omega) fun heq => by omega
      simp only [subtreeTokens, walk, toXml, hn, hk, if_true, Nat.zero_add]
      split
      · simp [startToken, StreamToken.xml, name?, hn, hk]
      · rw [List.map_append, List.map_cons, String.join_append, String.join_cons, hkids]
        simp [startToken, StreamToken.xml, name?, hn, hk, String.append_assoc]
    · -- any other node reads as it is written in context
      have hnot : top = top → d.kind? top ≠ some .element := fun _ => by simp [kind?, hn, hk]
      simp only [toXml, hn, hk, if_false]
      exact xml_walk h (d.size + 1) top 0 le_rfl hnot

end Xml

/-- Written as XML, an element's text children that a dropped declaration separated run
together, and read back they are one text node: `<r>a<?xml?>b</r>` has two text children, its
XML is `<r>ab</r>`, and that has one. -/
theorem reparse_merges_adjacent_text :
    (Document.parse "<r>a<?xml?>b</r>".toUTF8.toList true).toOption.map
        (fun d => (d.children 1, d.toXml 1)) = some ([2, 3], "<r>ab</r>") ∧
      (Document.parse "<r>ab</r>".toUTF8.toList true).toOption.map (·.children 1) = some [2] :=
  ⟨by decide +kernel, by decide +kernel⟩

end Document

/-- Draining a node reader over any node of a built document reads the walk of the node's
subtree: an element with children as a start token, its children's tokens and an end token at
the start token's depth, an element without children as one empty start token, every other
node as one token, each token with the node that produced it and that node's depth below the
top, the count of its ancestors beyond the top's (the document node's children at depth 0); a
read that gives a token always leaves the
reader with a node. Written one after another, the tokens are the node's XML as a fragment of
its own, and the drained reader is at its end, where reading gives none and changes nothing. -/
theorem NodeReader.drain_new_streams_subtree {input : List UInt8} {strict : Bool} {d : Document}
    (hd : Document.parse input strict = .ok d) (top : Nat) :
    (NodeReader.new d top).drain.1 = d.subtreeTokens top ∧
      String.join ((NodeReader.new d top).drain.1.map (·.token.xml)) = d.toXml top ∧
      (∀ e ∈ (NodeReader.new d top).drain.1, ∃ nt, d.node? top = some nt ∧ e.node < d.size ∧
        (d.ancestors e.node).length =
          (d.ancestors top).length + e.depth + (if nt.kind = .document then 1 else 0) ∧
        (e.node = top ∨ Document.Ancestor d top e.node)) ∧
      (∀ (r r' : NodeReader) t, r.read = (some t, r') → ∃ n, r'.lastNode = some n) ∧
      (NodeReader.new d top).drain.2.readState = .endOfFile ∧
      (NodeReader.new d top).drain.2.read = (none, (NodeReader.new d top).drain.2) := by
  have h := Document.parse_arena hd
  obtain ⟨r', hdrain, hdone, hend⟩ := NodeReader.drain_new h top
  rw [hdrain]
  exact ⟨rfl, Document.xml_subtreeTokens h top, NodeReader.subtreeTokens_depth h top,
    fun _ _ _ => NodeReader.read_lastNode, by simp [NodeReader.readState, hdone], hend⟩

/-- The reader over the root element of `<a><b/>t</a>` streams the element's XML and ends. -/
theorem NodeReader.drain_root_element_streams :
    ∃ d, Document.parse "<a><b/>t</a>".toUTF8.toList true = .ok d ∧
      String.join ((NodeReader.new d 1).drain.1.map (·.token.xml)) = d.toXml 1 ∧
      (NodeReader.new d 1).drain.2.readState = .endOfFile := by
  have hok : (Document.parse "<a><b/>t</a>".toUTF8.toList true).isOk = true := by
    decide +kernel
  cases h : Document.parse "<a><b/>t</a>".toUTF8.toList true with
  | ok d =>
    obtain ⟨-, hxml, -, -, hend, -⟩ := NodeReader.drain_new_streams_subtree h 1
    exact ⟨d, rfl, hxml, hend⟩
  | error e => rw [h] at hok; cases hok

end XmlPointer
