import Mathlib.Data.List.Nodup
import Mathlib.Data.Nat.Find
import XmlPointer.Document.Basic

/-! # Documents as ordered trees

The arena of a built document is an ordered tree numbered in pre-order: node 0 is the document
node, every other node has a parent with a smaller id, the first-child, last-child and sibling
links chain the children of every node in increasing id order, and the descendants of a node
are the ids right after it. `IsTree` states that shape in the words of the document's own
navigation; `Arena` is the invariant a build keeps, from which the shape follows. The loops
that navigate along the links stop by themselves: the children of a node are its first child
and the next siblings after it, its following and preceding siblings the nodes along the
sibling links, and the walk that climbs out of each subtree to the next sibling of the nearest
node that has one lists its descendants in document order (`Arena.descendants_eq_range`). -/
namespace XmlPointer.Document

variable {d : Document}

/-- `a` is a proper ancestor of `m`: one or more parent links lead from `m` up to `a`. -/
inductive Ancestor (d : Document) (a : Nat) : Nat → Prop
  | parent {m : Nat} : d.parent? m = some a → Ancestor d a m
  | up {m p : Nat} : d.parent? m = some p → Ancestor d a p → Ancestor d a m

def Contiguous (d : Document) : Prop :=
  ∀ x y z, x < y → y ≤ z → Ancestor d x z → Ancestor d x y

def elements (d : Document) : List Nat :=
  (List.range d.size).filter fun i => d.kind? i = some .element

def childIds (d : Document) (p : Nat) : List Nat :=
  (List.range d.size).filter fun i => d.parent? i = some p

/-- The links of the child list of `p` chain the nodes whose parent it is in id order: the
first and the last child are the first and the last of them, and each is linked to the one
before it and the one after it. -/
structure LinksFit (d : Document) (p : Nat) : Prop where
  first : d.firstChild? p = (d.childIds p).head?
  last : d.lastChild? p = (d.childIds p).getLast?
  next : ∀ j (h : j < (d.childIds p).length),
    d.nextSibling? (d.childIds p)[j] = (d.childIds p)[j + 1]?
  prev : ∀ j (h : j < (d.childIds p).length),
    d.prevSibling? (d.childIds p)[j] = if j = 0 then none else (d.childIds p)[j - 1]?

/-- The invariant of an arena under construction: the document node first, without siblings;
each other node linked to an earlier element or document node one level up; the links of every
child list chaining its children in id order; and contiguous descendants. -/
structure Arena (d : Document) : Prop where
  document_node : ∃ n, d.node? 0 = some n ∧ n.kind = .document ∧ n.parent = none ∧ n.depth = 0
  linked : ∀ i n, d.node? i = some n → 0 < i → ∃ p pn, n.parent = some p ∧ p < i ∧
    d.node? p = some pn ∧ (pn.kind = .element ∨ pn.kind = .document) ∧ n.kind ≠ .document ∧
    n.depth = pn.depth + 1
  links : ∀ p, d.LinksFit p
  no_siblings : d.nextSibling? 0 = none ∧ d.prevSibling? 0 = none
  contiguous : Contiguous d

/-- The shape of a built document. Node 0 is the only document node and has no parent; every
other node has an earlier element or document node as parent; following the first child and
then the next siblings visits exactly the nodes whose parent a node is, in increasing id order,
ending at its last child, and the previous-sibling links are the next-sibling links reversed;
the descendants of a node are the ids right after it; the 16-bit depth is the count of proper
ancestors modulo 2^16; and the root is the first element child of the document node. -/
structure IsTree (d : Document) : Prop where
  document_node : d.kind? 0 = some .document ∧ d.parent? 0 = none
  unique_document : ∀ i, i ≠ 0 → d.kind? i ≠ some .document
  parent_lt : ∀ i, 0 < i → i < d.size → ∃ p, d.parent? i = some p ∧ p < i ∧
    (d.kind? p = some .element ∨ d.kind? p = some .document)
  children_eq : ∀ p, d.children p = (List.range d.size).filter fun i => d.parent? i = some p
  last_child : ∀ p, d.lastChild? p = (d.children p).getLast?
  next_sibling : ∀ p j (h : j < (d.children p).length),
    d.nextSibling? (d.children p)[j] = (d.children p)[j + 1]?
  prev_sibling : ∀ p j (h : j < (d.children p).length),
    d.prevSibling? (d.children p)[j] = if j = 0 then none else (d.children p)[j - 1]?
  next_iff_prev : ∀ a b, d.nextSibling? a = some b ↔ d.prevSibling? b = some a
  descendants_range : ∀ n, ∃ k, ∀ m, n ∈ d.ancestors m ↔ n < m ∧ m ≤ n + k
  depth_eq : ∀ i n, d.node? i = some n → n.depth.toNat = (d.ancestors i).length % 65536
  root_eq : d.root = (d.children 0).find? fun i => d.kind? i = some .element

/-! ## Loops along links -/

theorem follow_of_links {next : Nat → Option Nat} :
    ∀ {cs : List Nat} {fuel : Nat}, cs.length ≤ fuel →
      (∀ j (h : j < cs.length), next cs[j] = cs[j + 1]?) → follow next fuel cs.head? = cs
  | [], 0, _, _ => rfl
  | [], _ + 1, _, _ => rfl
  | _ :: _, 0, hlen, _ => absurd hlen (by simp)
  | c :: cs, fuel + 1, hlen, hlink => by
    have hc : next c = cs.head? := by
      have := hlink 0 (by simp)
      rwa [List.getElem_cons_zero, List.getElem?_cons_succ, ← List.head?_eq_getElem?] at this
    rw [List.head?_cons, follow, hc, follow_of_links (by simpa using hlen) fun j hj => ?_]
    have := hlink (j + 1) (by simpa using hj)
    rwa [List.getElem_cons_succ, List.getElem?_cons_succ] at this

theorem follow_prev {prev : Nat → Option Nat} {cs : List Nat}
    (hprev : ∀ i (hi : i < cs.length), prev cs[i] = if i = 0 then none else cs[i - 1]?) :
    ∀ {j fuel : Nat} (hj : j < cs.length), j ≤ fuel →
      follow prev fuel (prev cs[j]) = (cs.take j).reverse
  | 0, fuel, hj, _ => by
    rw [hprev 0 hj, if_pos rfl]
    cases fuel <;> rfl
  | _ + 1, 0, _, hfuel => absurd hfuel (by omega)
  | j + 1, fuel + 1, hj, hfuel => by
    have hj' : j < cs.length := by omega
    rw [hprev (j + 1) hj, if_neg (Nat.succ_ne_zero j), Nat.add_sub_cancel,
      List.getElem?_eq_getElem hj', follow, follow_prev hprev hj' (by omega),
      List.take_add_one, List.getElem?_eq_getElem hj', Option.toList_some, List.reverse_append]
    rfl

theorem head?_eq_of_min {l : List Nat} {x : Nat} (hs : l.Pairwise (· < ·)) (hx : x ∈ l)
    (hmin : ∀ y ∈ l, x ≤ y) : l.head? = some x := by
  cases l with
  | nil => simp at hx
  | cons a l =>
    have hxa : x ≤ a := hmin a (by simp)
    rcases List.mem_cons.mp hx with rfl | hx
    · rfl
    · have := (List.pairwise_cons.mp hs).1 x hx
      omega

theorem mem_split_iff {A B : List Nat} {x : Nat} (hs : (A ++ x :: B).Pairwise (· < ·))
    (m : Nat) : (m ∈ B ↔ m ∈ A ++ x :: B ∧ x < m) ∧ (m ∈ A ↔ m ∈ A ++ x :: B ∧ m < x) := by
  obtain ⟨-, hB, hAB⟩ := List.pairwise_append.mp hs
  have hxB := (List.pairwise_cons.mp hB).1
  constructor
  · constructor
    · intro hm
      exact ⟨by simp [hm], hxB m hm⟩
    · rintro ⟨hm, hxm⟩
      rcases List.mem_append.mp hm with hm | hm
      · exact absurd (hAB m hm x (by simp)) (by omega)
      · rcases List.mem_cons.mp hm with rfl | hm
        · omega
        · exact hm
  · constructor
    · intro hm
      exact ⟨by simp [hm], hAB m hm x (by simp)⟩
    · rintro ⟨hm, hmx⟩
      rcases List.mem_append.mp hm with hm | hm
      · exact hm
      · rcases List.mem_cons.mp hm with rfl | hm
        · omega
        · exact absurd (hxB m hm) (by omega)

theorem lt_size_of_node? {i : Nat} {n : Node} (h : d.node? i = some n) : i < d.size := by
  simp only [node?, size] at *
  exact (Array.getElem?_eq_some_iff.mp h).1

theorem exists_node?_of_lt {i : Nat} (h : i < d.size) : ∃ n, d.node? i = some n :=
  ⟨d.nodes[i], Array.getElem?_eq_getElem h⟩

theorem node?_eq_none {i : Nat} (h : d.size ≤ i) : d.node? i = none := by
  simp only [node?, size] at *
  exact Array.getElem?_eq_none h

theorem parent?_eq_some {m p : Nat} :
    d.parent? m = some p ↔ ∃ n, d.node? m = some n ∧ n.parent = some p := by
  simp [parent?, Option.bind_eq_some_iff]

theorem lt_size_of_parent? {m p : Nat} (hp : d.parent? m = some p) : m < d.size := by
  obtain ⟨n, hn, -⟩ := parent?_eq_some.mp hp
  exact lt_size_of_node? hn

theorem Ancestor.node? {a m : Nat} (h : Ancestor d a m) : ∃ n, d.node? m = some n := by
  cases h with
  | parent hp | up hp _ =>
    obtain ⟨n, hn, -⟩ := parent?_eq_some.mp hp
    exact ⟨n, hn⟩

theorem lt_size_of_ancestor {a m : Nat} (ha : Ancestor d a m) : m < d.size := by
  obtain ⟨n, hn⟩ := ha.node?
  exact lt_size_of_node? hn

theorem Ancestor.trans {a b c : Nat} (hab : Ancestor d a b) (hbc : Ancestor d b c) :
    Ancestor d a c := by
  induction hbc with
  | parent hp => exact .up hp hab
  | up hp _ ih => exact .up hp ih

theorem ancestor_iff_of_parent? {a m p : Nat} (hp : d.parent? m = some p) :
    Ancestor d a m ↔ a = p ∨ Ancestor d a p := by
  constructor
  · intro ha
    cases ha with
    | parent hp' => rw [hp] at hp'; cases hp'; exact .inl rfl
    | up hp' hap => rw [hp] at hp'; cases hp'; exact .inr hap
  · rintro (rfl | hap)
    · exact .parent hp
    · exact .up hp hap

theorem ancestor_iff_exists_child {a m : Nat} :
    Ancestor d a m ↔ ∃ c, d.parent? c = some a ∧ (c = m ∨ Ancestor d c m) := by
  constructor
  · intro ha
    induction ha with
    | parent hp => exact ⟨_, hp, .inl rfl⟩
    | up hp _ ih =>
      obtain ⟨c, hc, hcm⟩ := ih
      refine ⟨c, hc, .inr ?_⟩
      rcases hcm with rfl | hcm
      · exact .parent hp
      · exact .up hp hcm
  · rintro ⟨c, hc, rfl | hcm⟩
    · exact .parent hc
    · exact (Ancestor.parent hc).trans hcm

theorem exists_parent?_of_ancestor {a m : Nat} (ha : Ancestor d a m) :
    ∃ p, d.parent? m = some p := by
  cases ha with
  | parent hp => exact ⟨a, hp⟩
  | up hp _ => exact ⟨_, hp⟩

theorem ancestors_eq_nil {m : Nat} (hp : d.parent? m = none) : d.ancestors m = [] := by
  unfold ancestors
  cases d.size <;> simp [ancestorsOf, hp]

theorem mem_childIds {p c : Nat} : c ∈ d.childIds p ↔ d.parent? c = some p := by
  simp only [childIds, List.mem_filter, List.mem_range, decide_eq_true_eq]
  exact ⟨fun h => h.2, fun h => ⟨lt_size_of_parent? h, h⟩⟩

theorem childIds_sorted (p : Nat) : (d.childIds p).Pairwise (· < ·) :=
  List.pairwise_lt_range.filter _

theorem length_childIds_le (p : Nat) : (d.childIds p).length ≤ d.size :=
  Nat.le_trans (List.length_filter_le _ _) (by simp)

theorem childIds_split {x p : Nat} (hp : d.parent? x = some p) :
    ∃ j, ∃ hj : j < (d.childIds p).length, (d.childIds p)[j] = x ∧
      d.childIds p = (d.childIds p).take j ++ x :: (d.childIds p).drop (j + 1) := by
  obtain ⟨j, hj, hx⟩ := List.mem_iff_getElem.mp (mem_childIds.mpr hp)
  refine ⟨j, hj, hx, ?_⟩
  rw [← hx, List.getElem_cons_drop, List.take_append_drop]

namespace Arena

variable (h : Arena d)
include h

theorem parent_lt {m p : Nat} (hp : d.parent? m = some p) : p < m := by
  obtain ⟨n, hn, hnp⟩ := parent?_eq_some.mp hp
  rcases Nat.eq_zero_or_pos m with rfl | hm
  · obtain ⟨n0, h0, -, hnone, -⟩ := h.document_node
    simp_all
  · obtain ⟨p', pn, hp', hlt, -⟩ := h.linked m n hn hm
    rw [hnp] at hp'
    cases hp'
    exact hlt

theorem ancestor_lt {a m : Nat} (ha : Ancestor d a m) : a < m := by
  induction ha with
  | parent hp => exact h.parent_lt hp
  | up hp _ ih => exact Nat.lt_trans ih (h.parent_lt hp)

theorem mem_ancestorsOf {a : Nat} :
    ∀ {fuel m : Nat}, m ≤ fuel → (a ∈ d.ancestorsOf fuel m ↔ Ancestor d a m)
  | 0, m, hm => by
    obtain rfl : m = 0 := Nat.le_zero.mp hm
    refine ⟨fun hmem => by simp [ancestorsOf] at hmem, fun ha => ?_⟩
    exact absurd (h.ancestor_lt ha) (Nat.not_lt_zero a)
  | fuel + 1, m, hm => by
    cases hp : d.parent? m with
    | none =>
      simp only [ancestorsOf, hp, List.not_mem_nil, false_iff]
      intro ha
      cases ha <;> simp_all
    | some p =>
      have hpm := h.parent_lt hp
      have ih : a ∈ d.ancestorsOf fuel p ↔ Ancestor d a p := mem_ancestorsOf (by omega)
      simp only [ancestorsOf, hp, List.mem_cons, ih]
      exact (ancestor_iff_of_parent? hp).symm

theorem mem_ancestors {a m : Nat} : a ∈ d.ancestors m ↔ Ancestor d a m := by
  by_cases hm : m ≤ d.size
  · exact h.mem_ancestorsOf hm
  · have hp : d.parent? m = none := by simp [parent?, node?_eq_none (by omega : d.size ≤ m)]
    have hnot : ¬Ancestor d a m := fun ha => by
      obtain ⟨p, hp'⟩ := exists_parent?_of_ancestor ha
      simp_all
    simp [ancestors_eq_nil hp, hnot]

theorem parent?_zero : d.parent? 0 = none := by
  obtain ⟨n0, h0, -, hnone, -⟩ := h.document_node
  simp [parent?, h0, hnone]

theorem ancestorsOf_eq : ∀ {f g m : Nat}, m ≤ f → m ≤ g → d.ancestorsOf f m = d.ancestorsOf g m
  | 0, g, m, hm, _ => by
    obtain rfl : m = 0 := Nat.le_zero.mp hm
    cases g <;> simp [ancestorsOf, h.parent?_zero]
  | f + 1, 0, m, _, hm => by
    obtain rfl : m = 0 := Nat.le_zero.mp hm
    simp [ancestorsOf, h.parent?_zero]
  | f + 1, g + 1, m, hf, hg => by
    cases hp : d.parent? m with
    | none => simp [ancestorsOf, hp]
    | some p =>
      have hpm := h.parent_lt hp
      simp [ancestorsOf, hp, ancestorsOf_eq (by omega : p ≤ f) (by omega : p ≤ g)]

theorem ancestors_of_parent? {m p : Nat} (hp : d.parent? m = some p) :
    d.ancestors m = p :: d.ancestors p := by
  have hm := lt_size_of_parent? hp
  have hpm := h.parent_lt hp
  obtain ⟨k, hk⟩ : ∃ k, d.size = k + 1 := ⟨d.size - 1, by omega⟩
  simp only [ancestors, hk, ancestorsOf, hp, h.ancestorsOf_eq (by omega : p ≤ k) (by omega : p ≤ k + 1)]

theorem ancestors_zero : d.ancestors 0 = [] :=
  ancestors_eq_nil h.parent?_zero

theorem dropWhile_ancestors {e : Nat} :
    ∀ y, e ∈ y :: d.ancestors y → (y :: d.ancestors y).dropWhile (· != e) = e :: d.ancestors e := by
  intro y
  induction y using Nat.strong_induction_on with
  | _ y ih =>
    intro hy
    by_cases hye : y = e
    · subst hye
      simp
    · cases hp : d.parent? y with
      | none =>
        rw [ancestors_eq_nil hp, List.mem_singleton] at hy
        exact absurd hy.symm hye
      | some p =>
        rw [h.ancestors_of_parent? hp] at hy ⊢
        rw [List.dropWhile_cons_of_pos (by simpa using hye)]
        exact ih p (h.parent_lt hp) ((List.mem_cons.mp hy).resolve_left (Ne.symm hye))

theorem length_ancestorsOf :
    ∀ {fuel m : Nat} {n : Node}, m ≤ fuel → d.node? m = some n →
      n.depth = UInt16.ofNat (d.ancestorsOf fuel m).length
  | 0, m, n, hm, hn => by
    obtain rfl : m = 0 := Nat.le_zero.mp hm
    obtain ⟨n0, h0, -, -, hd⟩ := h.document_node
    rw [h0] at hn
    cases hn
    simp [ancestorsOf, hd]
  | fuel + 1, m, n, hm, hn => by
    rcases Nat.eq_zero_or_pos m with rfl | hpos
    · obtain ⟨n0, h0, -, hnone, hd⟩ := h.document_node
      rw [h0] at hn
      cases hn
      simp [ancestorsOf, parent?, h0, hnone, hd]
    · obtain ⟨p, pn, hnp, hlt, hpn, -, -, hdepth⟩ := h.linked m n hn hpos
      have hp : d.parent? m = some p := parent?_eq_some.mpr ⟨n, hn, hnp⟩
      have hlen := length_ancestorsOf (by omega : p ≤ fuel) hpn
      simp [ancestorsOf, hp, ← hlen, hdepth, UInt16.ofNat_add]

theorem depth_eq {i : Nat} {n : Node} (hn : d.node? i = some n) :
    n.depth = UInt16.ofNat (d.ancestors i).length :=
  h.length_ancestorsOf (Nat.le_of_lt (lt_size_of_node? hn)) hn

theorem ancestors_eq_of_parent? {d' : Document} (h' : Arena d') :
    ∀ x, (∀ m ≤ x, d'.parent? m = d.parent? m) → d'.ancestors x = d.ancestors x := by
  intro x
  induction x using Nat.strong_induction_on with
  | _ x ih =>
    intro hx
    cases hp : d.parent? x with
    | none => rw [ancestors_eq_nil hp, ancestors_eq_nil ((hx x le_rfl).trans hp)]
    | some p =>
      have hpx := h.parent_lt hp
      rw [h.ancestors_of_parent? hp, h'.ancestors_of_parent? ((hx x le_rfl).trans hp),
        ih p hpx fun m hm => hx m (by omega)]

theorem descendants_range (n : Nat) : ∃ k, ∀ m, n ∈ d.ancestors m ↔ n < m ∧ m ≤ n + k := by
  classical
  refine ⟨Nat.findGreatest (Ancestor d n) d.size - n, fun m => ?_⟩
  rw [h.mem_ancestors]
  constructor
  · intro ha
    have hle := Nat.le_findGreatest (Nat.le_of_lt (lt_size_of_ancestor ha)) ha
    have hlt := h.ancestor_lt ha
    omega
  · rintro ⟨hnm, hmk⟩
    have hg : Ancestor d n (Nat.findGreatest (Ancestor d n) d.size) :=
      Nat.findGreatest_of_ne_zero rfl (by omega)
    rcases Nat.lt_or_ge m (Nat.findGreatest (Ancestor d n) d.size) with hlt | hge
    · exact h.contiguous n m _ hnm (Nat.le_of_lt hlt) hg
    · rwa [show m = Nat.findGreatest (Ancestor d n) d.size by omega]

theorem lt_of_not_ancestor {a u v : Nat} (hu : Ancestor d a u) (hav : a < v)
    (hv : ¬ Ancestor d a v) : u < v := by
  by_contra hle
  exact hv (h.contiguous a v u hav (Nat.le_of_not_lt hle) hu)

theorem not_ancestor_of_siblings {p c c' : Nat} (hc : d.parent? c = some p)
    (hc' : d.parent? c' = some p) : ¬ Ancestor d c c' := by
  intro ha
  have hpc := h.parent_lt hc
  rcases (ancestor_iff_of_parent? hc').mp ha with rfl | hcp
  · omega
  · have := h.ancestor_lt hcp
    omega

/-! ### The child lists along the links -/

theorem children_eq (p : Nat) : d.children p = d.childIds p := by
  rw [children, (h.links p).first]
  exact follow_of_links (d.length_childIds_le p) (h.links p).next

theorem mem_children {p c : Nat} : c ∈ d.children p ↔ d.parent? c = some p := by
  rw [h.children_eq, mem_childIds]

theorem nodup_children (p : Nat) : (d.children p).Nodup := by
  rw [h.children_eq]
  exact List.nodup_range.filter _

theorem children_sorted (p : Nat) : (d.children p).Pairwise (· < ·) := by
  rw [h.children_eq]
  exact childIds_sorted p

theorem followingSiblings_getElem {p j : Nat} (hj : j < (d.childIds p).length) :
    d.followingSiblings (d.childIds p)[j] = (d.childIds p).drop (j + 1) := by
  rw [followingSiblings, (h.links p).next j hj, ← List.head?_drop]
  refine follow_of_links (by have := d.length_childIds_le p; simp; omega) fun i hi => ?_
  have hi' : j + 1 + i < (d.childIds p).length := by simp at hi; omega
  rw [List.getElem_drop, List.getElem?_drop, (h.links p).next _ hi']
  rfl

theorem precedingSiblings_getElem {p j : Nat} (hj : j < (d.childIds p).length) :
    d.precedingSiblings (d.childIds p)[j] = ((d.childIds p).take j).reverse :=
  follow_prev (h.links p).prev hj (by have := d.length_childIds_le p; omega)

theorem siblings_split {x p : Nat} (hp : d.parent? x = some p) :
    ∃ A B, d.childIds p = A ++ x :: B ∧ d.followingSiblings x = B ∧
      d.precedingSiblings x = A.reverse := by
  obtain ⟨j, hj, hx, hsplit⟩ := childIds_split hp
  refine ⟨_, _, hsplit, ?_, ?_⟩
  · rw [← hx, h.followingSiblings_getElem hj]
  · rw [← hx, h.precedingSiblings_getElem hj]

theorem siblings_of_parent?_none {x : Nat} (hp : d.parent? x = none) :
    d.nextSibling? x = none ∧ d.prevSibling? x = none := by
  by_cases hx : x < d.size
  · obtain ⟨n, hn⟩ := exists_node?_of_lt hx
    rcases Nat.eq_zero_or_pos x with rfl | hpos
    · exact h.no_siblings
    · obtain ⟨p, -, hnp, -⟩ := h.linked x n hn hpos
      simp [parent?, hn, hnp] at hp
  · simp [nextSibling?, prevSibling?, node?_eq_none (Nat.le_of_not_lt hx)]

theorem nextSibling?_split {x p : Nat} (hp : d.parent? x = some p) :
    ∃ A B, d.childIds p = A ++ x :: B ∧ d.nextSibling? x = B.head? := by
  obtain ⟨j, hj, hx, hsplit⟩ := childIds_split hp
  refine ⟨_, _, hsplit, ?_⟩
  rw [← hx, (h.links p).next j hj, List.head?_drop]

theorem parent?_of_nextSibling? {x s : Nat} (hs : d.nextSibling? x = some s) :
    ∃ p, d.parent? x = some p ∧ d.parent? s = some p ∧ x < s := by
  cases hp : d.parent? x with
  | none => simp [(h.siblings_of_parent?_none hp).1] at hs
  | some p =>
    obtain ⟨A, B, hcs, hnext⟩ := h.nextSibling?_split hp
    have hsB : s ∈ B := List.mem_of_mem_head? (hnext ▸ hs)
    have hsorted := childIds_sorted (d := d) p
    rw [hcs] at hsorted
    have hmem := ((mem_split_iff hsorted s).1.mp hsB)
    exact ⟨p, rfl, mem_childIds.mp (hcs ▸ hmem.1), hmem.2⟩

theorem next_iff_prev (a b : Nat) : d.nextSibling? a = some b ↔ d.prevSibling? b = some a := by
  constructor
  · intro hab
    obtain ⟨p, hap, -, -⟩ := h.parent?_of_nextSibling? hab
    obtain ⟨j, hj, rfl, -⟩ := childIds_split hap
    rw [(h.links p).next j hj] at hab
    obtain ⟨hlt, rfl⟩ := List.getElem?_eq_some_iff.mp hab
    rw [(h.links p).prev (j + 1) hlt]
    simp
  · intro hba
    cases hp : d.parent? b with
    | none => simp [(h.siblings_of_parent?_none hp).2] at hba
    | some p =>
      obtain ⟨j, hj, rfl, -⟩ := childIds_split hp
      rw [(h.links p).prev j hj] at hba
      by_cases hj0 : j = 0
      · simp [hj0] at hba
      · rw [if_neg hj0] at hba
        obtain ⟨hlt, hget⟩ := List.getElem?_eq_some_iff.mp hba
        rw [← hget, (h.links p).next (j - 1) hlt]
        simp only [show j - 1 + 1 = j by omega, List.getElem?_eq_getElem hj]

/-! ### The walk over the descendants -/

open Classical in
theorem firstChild?_eq (c : Nat) :
    d.firstChild? c = if Ancestor d c (c + 1) then some (c + 1) else none := by
  rw [(h.links c).first]
  split_ifs with hc
  · -- the next id lies below `c` and has no parent after `c`, so it is `c`'s first child
    have hpar : d.parent? (c + 1) = some c := by
      obtain ⟨q, hq⟩ := exists_parent?_of_ancestor hc
      rcases (ancestor_iff_of_parent? hq).mp hc with rfl | hcq
      · exact hq
      · have := h.ancestor_lt hcq
        have := h.parent_lt hq
        omega
    refine head?_eq_of_min (childIds_sorted c) (mem_childIds.mpr hpar) fun y hy => ?_
    exact h.parent_lt (mem_childIds.mp hy)
  · -- no child: its first one would put the next id below `c`
    refine List.head?_eq_none_iff.mpr (List.eq_nil_iff_forall_not_mem.mpr fun y hy => hc ?_)
    have hcy : Ancestor d c y := .parent (mem_childIds.mp hy)
    exact h.contiguous c (c + 1) y (by omega) (h.ancestor_lt hcy) hcy

/-- The next sibling of a node is the id right after its subtree. -/
theorem nextSibling_eq_succ {e s c : Nat} (hs : d.nextSibling? e = some s)
    (hec : e = c ∨ Ancestor d e c) (hend : ∀ m, Ancestor d e m → m ≤ c) : s = c + 1 := by
  obtain ⟨q, hq, hsq, hes⟩ := h.parent?_of_nextSibling? hs
  obtain ⟨A, B, hcs, hnext⟩ := h.nextSibling?_split hq
  have hsorted := childIds_sorted (d := d) q
  rw [hcs] at hsorted
  have hec' : e ≤ c := by
    rcases hec with rfl | hec
    · exact le_rfl
    · exact Nat.le_of_lt (h.ancestor_lt hec)
  -- every later sibling lies past the subtree of `e`
  have hafter : ∀ t ∈ B, c < t := by
    intro t ht
    obtain ⟨htcs, het⟩ := (mem_split_iff hsorted t).1.mp ht
    have htq : d.parent? t = some q := mem_childIds.mp (hcs ▸ htcs)
    have hnot := h.not_ancestor_of_siblings hq htq
    rcases hec with rfl | hec
    · exact het
    · exact h.lt_of_not_ancestor hec het hnot
  have hsB : s ∈ B := List.mem_of_mem_head? (hnext ▸ hs)
  have hcs1 : c + 1 ≤ s := hafter s hsB
  -- so the id after the subtree hangs below `q`, on a branch of its own
  have hqc : Ancestor d q (c + 1) := by
    rcases Nat.lt_or_ge (c + 1) s with hlt | hge
    · exact h.contiguous q (c + 1) s (by have := h.parent_lt hq; omega) (Nat.le_of_lt hlt) (.parent hsq)
    · rw [show c + 1 = s by omega]
      exact .parent hsq
  have hchild : d.parent? (c + 1) = some q := by
    obtain ⟨a, haq, ham⟩ := ancestor_iff_exists_child.mp hqc
    rcases ham with rfl | ham
    · exact haq
    · exfalso
      have hac := h.ancestor_lt ham
      rcases Nat.lt_trichotomy a e with hae | rfl | hae
      · exact h.not_ancestor_of_siblings haq hq (h.contiguous a e (c + 1) hae (by omega) ham)
      · exact absurd (hend _ ham) (by omega)
      · rcases hec with rfl | hec
        · omega
        · exact h.not_ancestor_of_siblings hq haq (h.contiguous e a c hae (by omega) hec)
  have hmemB : c + 1 ∈ B :=
    (mem_split_iff hsorted (c + 1)).1.mpr ⟨hcs ▸ mem_childIds.mpr hchild, by omega⟩
  have hmin : s ≤ c + 1 := by
    cases B with
    | nil => simp at hsB
    | cons b B =>
      have hsb : s = b := by
        rw [hnext, List.head?_cons] at hs
        exact (Option.some.inj hs).symm
      rw [hsb]
      rcases List.mem_cons.mp hmemB with heq | hmem
      · omega
      · have hbB := (List.pairwise_cons.mp (List.pairwise_cons.mp
          (List.pairwise_append.mp hsorted).2.1).2).1 _ hmem
        omega
  omega

/-- The subtree of the last child of a node ends where the node's own subtree ends. -/
theorem subtree_end_of_last {e q c : Nat} (hq : d.parent? e = some q)
    (hnone : d.nextSibling? e = none) (hec : e = c ∨ Ancestor d e c)
    (hend : ∀ m, Ancestor d e m → m ≤ c) : ∀ m, Ancestor d q m → m ≤ c := by
  obtain ⟨A, B, hcs, hnext⟩ := h.nextSibling?_split hq
  have hB : B = [] := List.head?_eq_none_iff.mp (hnext ▸ hnone)
  have hsorted := childIds_sorted (d := d) q
  rw [hcs, hB] at hsorted
  have hec' : e ≤ c := by
    rcases hec with rfl | hec
    · exact le_rfl
    · exact Nat.le_of_lt (h.ancestor_lt hec)
  intro m hm
  obtain ⟨a, haq, ham⟩ := ancestor_iff_exists_child.mp hm
  -- every child of `q` is at most `e`, and the subtrees of the earlier ones end before `e`
  have hae : a ≤ e := by
    have hmem : a ∈ A ++ [e] := by rw [← hB, ← hcs]; exact mem_childIds.mpr haq
    rcases List.mem_append.mp hmem with haA | hae
    · exact Nat.le_of_lt ((mem_split_iff (B := []) hsorted a).2.mp haA).2
    · simp at hae
      omega
  rcases Nat.lt_or_ge a e with hlt | hge
  · rcases ham with rfl | ham
    · omega
    · have : m < e := by
        by_contra hme
        exact h.not_ancestor_of_siblings haq hq
          (h.contiguous a e m hlt (by omega) ham)
      omega
  · obtain rfl : a = e := by omega
    rcases ham with rfl | ham
    · exact hec'
    · exact hend m ham

open Classical in
/-- Climbing from a node `e` whose subtree ends at `c`, inside `root`: the walk gives the id
after `c` when that still lies below `root`, and nothing otherwise. -/
theorem nextOutside_eq {root c : Nat} :
    ∀ fuel e, e < fuel → (e = root ∨ Ancestor d root e) → (e = c ∨ Ancestor d e c) →
      (∀ m, Ancestor d e m → m ≤ c) →
      d.nextOutside root fuel e = if Ancestor d root (c + 1) then some (c + 1) else none
  | 0, e, he, _, _, _ => absurd he (Nat.not_lt_zero e)
  | fuel + 1, e, hfuel, hroot, hec, hend => by
    rw [nextOutside]
    by_cases her : e = root
    · -- at the top: nothing of `root` comes after `c`
      subst her
      rw [if_pos rfl, if_neg fun ha => absurd (hend _ ha) (by omega)]
    · rw [if_neg her]
      have hre : Ancestor d root e := hroot.resolve_left her
      obtain ⟨q, hq⟩ := exists_parent?_of_ancestor hre
      have hrq : root = q ∨ Ancestor d root q := (ancestor_iff_of_parent? hq).mp hre
      cases hs : d.nextSibling? e with
      | some s =>
        have hsc := h.nextSibling_eq_succ hs hec hend
        subst hsc
        obtain ⟨q', hq', hsq, -⟩ := h.parent?_of_nextSibling? hs
        rw [hq] at hq'
        cases hq'
        rw [if_pos ((ancestor_iff_of_parent? hsq).mpr hrq)]
      | none =>
        -- the last child: climb to the parent, whose subtree ends at `c` too
        dsimp only
        rw [hq, Option.bind_some]
        refine nextOutside_eq fuel q (by have := h.parent_lt hq; omega) ?_ ?_
          (h.subtree_end_of_last hq hs hec hend)
        · rcases hrq with rfl | hrq
          · exact .inl rfl
          · exact .inr hrq
        · rcases hec with rfl | hec
          · exact .inr (.parent hq)
          · exact .inr ((Ancestor.parent hq).trans hec)

open Classical in
theorem nextInside_eq {root c : Nat} (hc : c = root ∨ Ancestor d root c) (hcs : c < d.size) :
    d.nextInside root c = if Ancestor d root (c + 1) then some (c + 1) else none := by
  rw [nextInside, h.firstChild?_eq]
  by_cases hcc : Ancestor d c (c + 1)
  · have hrc : Ancestor d root (c + 1) := by
      rcases hc with rfl | hc
      · exact hcc
      · exact hc.trans hcc
    rw [if_pos hcc, if_pos hrc, Option.some_or]
  · -- a leaf is the end of its own subtree
    rw [if_neg hcc, Option.none_or]
    refine h.nextOutside_eq d.size c hcs hc (.inl rfl) fun m hm => absurd ?_ hcc
    exact h.contiguous c (c + 1) m (by omega) (h.ancestor_lt hm) hm

theorem descendants_eq_range (x : Nat) :
    ∃ k, d.descendants x = List.range' (x + 1) k ∧ ∀ m, Ancestor d x m ↔ x < m ∧ m ≤ x + k := by
  obtain ⟨k, hk⟩ := h.descendants_range x
  simp only [h.mem_ancestors] at hk
  refine ⟨k, ?_, hk⟩
  have hlen : k ≤ d.size := by
    rcases Nat.eq_zero_or_pos k with rfl | hpos
    · exact Nat.zero_le _
    · have := lt_size_of_ancestor ((hk (x + k)).mpr ⟨by omega, le_rfl⟩)
      omega
  rw [descendants]
  have hfirst : d.firstChild? x = (List.range' (x + 1) k).head? := by
    rw [h.firstChild?_eq]
    rcases Nat.eq_zero_or_pos k with rfl | hpos
    · rw [if_neg fun ha => by have := (hk _).mp ha; omega]
      rfl
    · rw [if_pos ((hk _).mpr ⟨by omega, by omega⟩), List.head?_eq_getElem?,
        List.getElem?_range' hpos, Nat.mul_zero, Nat.add_zero]
  rw [hfirst]
  refine follow_of_links (by simpa using hlen) fun j hj => ?_
  simp only [List.length_range'] at hj
  have hin : Ancestor d x (x + 1 + j) := (hk _).mpr ⟨by omega, by omega⟩
  simp only [List.getElem_range', Nat.one_mul]
  rw [h.nextInside_eq (.inr hin) (lt_size_of_ancestor hin)]
  split_ifs with hnext
  · rw [List.getElem?_range' (by have := (hk _).mp hnext; omega)]
    simp
    omega
  · rw [List.getElem?_eq_none (by simp; by_contra hc; exact hnext ((hk _).mpr ⟨by omega, by omega⟩))]

theorem isTree (hroot : d.root = (d.children 0).find? fun i => d.kind? i = some .element) :
    IsTree d where
  document_node := by
    obtain ⟨n0, h0, hk, hp, -⟩ := h.document_node
    simp [kind?, parent?, h0, hk, hp]
  unique_document i hi := by
    cases hn : d.node? i with
    | none => simp [kind?, hn]
    | some n =>
      obtain ⟨-, -, -, -, -, -, hk, -⟩ := h.linked i n hn (Nat.pos_of_ne_zero hi)
      simpa [kind?, hn] using hk
  parent_lt i hi hs := by
    obtain ⟨n, hn⟩ := exists_node?_of_lt hs
    obtain ⟨p, pn, hnp, hlt, hpn, hk, -⟩ := h.linked i n hn hi
    exact ⟨p, parent?_eq_some.mpr ⟨n, hn, hnp⟩, hlt, by simpa [kind?, hpn] using hk⟩
  children_eq := h.children_eq
  last_child p := by rw [h.children_eq, (h.links p).last]
  next_sibling p j hj := by
    simp only [h.children_eq] at hj ⊢
    exact (h.links p).next j hj
  prev_sibling p j hj := by
    simp only [h.children_eq] at hj ⊢
    exact (h.links p).prev j hj
  next_iff_prev := h.next_iff_prev
  descendants_range := h.descendants_range
  depth_eq _ _ hn := by rw [h.depth_eq hn, UInt16.toNat_ofNat']
  root_eq := hroot

end Arena

/-! ## Documents with the same nodes -/

section Congr

variable {d' : Document} (hn : d'.nodes = d.nodes)
include hn

theorem node?_congr : d'.node? = d.node? := by
  funext i
  simp [node?, hn]

theorem parent?_congr : d'.parent? = d.parent? := by
  funext i
  simp [parent?, node?_congr hn]

theorem kind?_congr : d'.kind? = d.kind? := by
  funext i
  simp [kind?, node?_congr hn]

theorem size_congr : d'.size = d.size := by
  simp [size, hn]

theorem firstChild?_congr : d'.firstChild? = d.firstChild? := by
  funext i
  simp [firstChild?, node?_congr hn]

theorem lastChild?_congr : d'.lastChild? = d.lastChild? := by
  funext i
  simp [lastChild?, node?_congr hn]

theorem nextSibling?_congr : d'.nextSibling? = d.nextSibling? := by
  funext i
  simp [nextSibling?, node?_congr hn]

theorem prevSibling?_congr : d'.prevSibling? = d.prevSibling? := by
  funext i
  simp [prevSibling?, node?_congr hn]

theorem children_congr : d'.children = d.children := by
  funext i
  simp only [children, firstChild?_congr hn, nextSibling?_congr hn, size_congr hn]

theorem childIds_congr : d'.childIds = d.childIds := by
  funext p
  simp only [childIds, size_congr hn, parent?_congr hn]

theorem elements_congr : d'.elements = d.elements := by
  simp [elements, size_congr hn, kind?_congr hn]

theorem attributes_congr : d'.attributes = d.attributes := by
  funext i
  simp [Document.attributes, node?_congr hn]

theorem ancestors_congr : d'.ancestors = d.ancestors := by
  have ho : ∀ fuel x, d'.ancestorsOf fuel x = d.ancestorsOf fuel x := by
    intro fuel
    induction fuel with
    | zero => intro x; rfl
    | succ fuel ih => intro x; simp only [ancestorsOf, parent?_congr hn, ih]
  funext x
  rw [ancestors, ancestors, size_congr hn, ho]

theorem Ancestor.congr {a m : Nat} (ha : Ancestor d a m) : Ancestor d' a m := by
  induction ha with
  | parent hp => exact .parent (by rwa [parent?_congr hn])
  | up hp _ ih => exact .up (by rwa [parent?_congr hn]) ih

theorem Arena.congr (h : Arena d) : Arena d' where
  document_node := by rw [node?_congr hn]; exact h.document_node
  linked := by rw [node?_congr hn]; exact h.linked
  links p :=
    ⟨by rw [firstChild?_congr hn, childIds_congr hn]; exact (h.links p).first,
      by rw [lastChild?_congr hn, childIds_congr hn]; exact (h.links p).last,
      by rw [nextSibling?_congr hn, childIds_congr hn]; exact (h.links p).next,
      by rw [prevSibling?_congr hn, childIds_congr hn]; exact (h.links p).prev⟩
  no_siblings := by rw [nextSibling?_congr hn, prevSibling?_congr hn]; exact h.no_siblings
  contiguous x y z hxy hyz ha := (h.contiguous x y z hxy hyz (ha.congr hn.symm)).congr hn

end Congr

end XmlPointer.Document
