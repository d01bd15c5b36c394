import Mathlib
import XmlPointer.Path.Axis
import XmlPointer.Proofs.Build

/-! # The axes of a built document

In a built document the ids number the nodes in document order, so each XPath axis from a node
is a set of ids given by the ancestor relation and by the order of ids. `Path.axisNodes_exact`
states that every axis lists exactly its nodes, each once, in increasing order for the forward
axes and nearest first for the reverse ones; that self, ancestors, descendants, following and
preceding nodes together are every node once; and that the walk of the descendants, from the
first child and out of each subtree to the next sibling on the way up, lists the proper
descendants of a node in document order. The child and sibling axes follow the sibling links, and
the following and preceding axes follow them from the node and from each of its ancestors. -/
namespace XmlPointer.Document

variable {d : Document}

theorem follow_none (next : Nat → Option Nat) (fuel : Nat) : follow next fuel none = [] := by
  cases fuel <;> rfl

theorem Arena.siblings_nil {x : Nat} (h : Arena d) (hp : d.parent? x = none) :
    d.followingSiblings x = [] ∧ d.precedingSiblings x = [] := by
  obtain ⟨hn, hp'⟩ := h.siblings_of_parent?_none hp
  exact ⟨by rw [followingSiblings, hn, follow_none], by rw [precedingSiblings, hp', follow_none]⟩

namespace Arena

variable (h : Arena d)
include h

theorem parent?_eq_none_iff {x : Nat} (hx : x < d.size) : d.parent? x = none ↔ x = 0 := by
  constructor
  · intro hp
    by_contra hx0
    obtain ⟨n, hn⟩ := exists_node?_of_lt hx
    obtain ⟨p, -, hnp, -⟩ := h.linked x n hn (Nat.pos_of_ne_zero hx0)
    simp [parent?, hn, hnp] at hp
  · rintro rfl
    exact h.parent?_zero

theorem ancestor_zero {m : Nat} (hm : 0 < m) (hs : m < d.size) : Ancestor d 0 m := by
  induction m using Nat.strong_induction_on with
  | _ m ih =>
    obtain ⟨n, hn⟩ := exists_node?_of_lt hs
    obtain ⟨p, -, hnp, hpm, -⟩ := h.linked m n hn hm
    have hp : d.parent? m = some p := parent?_eq_some.mpr ⟨n, hn, hnp⟩
    rcases Nat.eq_zero_or_pos p with rfl | hp0
    · exact .parent hp
    · exact .up hp (ih p hpm hp0 (by omega))

theorem descendants_spec (x : Nat) :
    (d.descendants x).Pairwise (· < ·) ∧ ∀ m, m ∈ d.descendants x ↔ Ancestor d x m := by
  obtain ⟨k, hdesc, hanc⟩ := h.descendants_eq_range x
  refine ⟨hdesc ▸ List.pairwise_lt_range', fun m => ?_⟩
  rw [hdesc, List.mem_range'_1, hanc]
  omega

theorem mem_subtree {s m : Nat} : m ∈ d.subtree s ↔ m = s ∨ Ancestor d s m := by
  rw [subtree, List.mem_cons, (h.descendants_spec s).2]

theorem subtree_sorted (s : Nat) : (d.subtree s).Pairwise (· < ·) := by
  obtain ⟨hsorted, hmem⟩ := h.descendants_spec s
  exact List.pairwise_cons.mpr ⟨fun m hm => h.ancestor_lt ((hmem m).mp hm), hsorted⟩

theorem subtree_lt_of_lt {s s' u v : Nat} (hlt : s < s') (hn : ¬ Ancestor d s s')
    (hu : u ∈ d.subtree s) (hv : v ∈ d.subtree s') : u < v := by
  have hsv : s' ≤ v := by
    rcases (h.mem_subtree).mp hv with rfl | hv
    · exact le_rfl
    · exact Nat.le_of_lt (h.ancestor_lt hv)
  have hus : u < s' := by
    rcases (h.mem_subtree).mp hu with rfl | hu
    · exact hlt
    · exact h.lt_of_not_ancestor hu hlt hn
  omega

/-! ## Ancestors and siblings -/

theorem ancestors_sorted (x : Nat) : (d.ancestors x).Pairwise (· > ·) := by
  induction x using Nat.strong_induction_on with
  | _ x ih =>
    cases hp : d.parent? x with
    | none => simp [ancestors_eq_nil hp]
    | some p =>
      rw [h.ancestors_of_parent? hp]
      refine List.pairwise_cons.mpr ⟨fun a ha => ?_, ih p (h.parent_lt hp)⟩
      exact h.ancestor_lt ((h.mem_ancestors).mp ha)

theorem followingSiblings_spec (x : Nat) :
    (d.followingSiblings x).Pairwise (· < ·) ∧ ∀ m, m ∈ d.followingSiblings x ↔
      ∃ p, d.parent? x = some p ∧ d.parent? m = some p ∧ x < m := by
  cases hp : d.parent? x with
  | none => simp [(h.siblings_nil hp).1]
  | some p =>
    obtain ⟨A, B, hcs, hB, -⟩ := h.siblings_split hp
    have hsorted := childIds_sorted (d := d) p
    rw [hcs] at hsorted
    refine ⟨hB ▸ (List.pairwise_append.mp hsorted).2.1.sublist (List.sublist_cons_self x B),
      fun m => ?_⟩
    rw [hB, (mem_split_iff hsorted m).1, ← hcs, mem_childIds]
    simp

theorem precedingSiblings_spec (x : Nat) :
    (d.precedingSiblings x).Pairwise (· > ·) ∧ ∀ m, m ∈ d.precedingSiblings x ↔
      ∃ p, d.parent? x = some p ∧ d.parent? m = some p ∧ m < x := by
  cases hp : d.parent? x with
  | none => simp [(h.siblings_nil hp).2]
  | some p =>
    obtain ⟨A, B, hcs, -, hA⟩ := h.siblings_split hp
    have hsorted := childIds_sorted (d := d) p
    rw [hcs] at hsorted
    refine ⟨hA ▸ List.pairwise_reverse.mpr (List.pairwise_append.mp hsorted).1, fun m => ?_⟩
    rw [hA, List.mem_reverse, (mem_split_iff hsorted m).2, ← hcs, mem_childIds]
    simp

/-! ## Following and preceding nodes -/

/-- The subtrees of a node's following siblings hold the nodes below its parent that come after
it and are not below it. -/
theorem mem_followingBlock {x p m : Nat} (hp : d.parent? x = some p) :
    m ∈ (d.followingSiblings x).flatMap d.subtree ↔
      Ancestor d p m ∧ x < m ∧ ¬ Ancestor d x m := by
  simp only [List.mem_flatMap, (h.followingSiblings_spec x).2, h.mem_subtree]
  constructor
  · rintro ⟨s, ⟨q, hxq, hs, hxs⟩, hsm⟩
    obtain rfl : q = p := Option.some.inj (hxq.symm.trans hp)
    have hps : Ancestor d q s := .parent hs
    have hsle : s ≤ m := by
      rcases hsm with rfl | hsm
      · exact le_rfl
      · exact Nat.le_of_lt (h.ancestor_lt hsm)
    refine ⟨?_, by omega, fun hxm => ?_⟩
    · rcases hsm with rfl | hsm
      · exact hps
      · exact hps.trans hsm
    · exact h.not_ancestor_of_siblings hp hs (h.contiguous x s m hxs hsle hxm)
  · rintro ⟨hpm, hxm, hnxm⟩
    obtain ⟨s, hs, hsm⟩ := ancestor_iff_exists_child.mp hpm
    refine ⟨s, ⟨p, hp, hs, ?_⟩, hsm.imp Eq.symm id⟩
    -- the child of `p` above `m` is neither `x` nor a sibling before it
    rcases Nat.lt_trichotomy s x with hsx | rfl | hxs
    · rcases hsm with rfl | hsm
      · omega
      · exact absurd (h.contiguous s x m hsx (Nat.le_of_lt hxm) hsm)
          (h.not_ancestor_of_siblings hs hp)
    · rcases hsm with rfl | hsm
      · omega
      · exact absurd hsm hnxm
    · exact hxs

theorem followingBlock_sorted (x : Nat) :
    ((d.followingSiblings x).flatMap d.subtree).Pairwise (· < ·) := by
  obtain ⟨hsorted, hmem⟩ := h.followingSiblings_spec x
  refine List.pairwise_flatMap.mpr ⟨fun s _ => h.subtree_sorted s, ?_⟩
  refine hsorted.imp_of_mem fun hs hs' hlt u hu v hv => h.subtree_lt_of_lt hlt ?_ hu hv
  obtain ⟨p, -, hsp, -⟩ := (hmem _).mp hs
  obtain ⟨p', -, hsp', -⟩ := (hmem _).mp hs'
  obtain rfl : p = p' := by
    obtain ⟨q, hxq, hq, -⟩ := (hmem _).mp hs
    obtain ⟨q', hxq', hq', -⟩ := (hmem _).mp hs'
    rw [hxq] at hxq'
    rw [hq] at hsp
    rw [hq'] at hsp'
    cases hxq'
    exact (Option.some.inj hsp).symm.trans (Option.some.inj hsp')
  exact h.not_ancestor_of_siblings hsp hsp'

theorem mem_precedingBlock {x p m : Nat} (hp : d.parent? x = some p) :
    m ∈ (d.precedingSiblings x).flatMap (fun s => (d.subtree s).reverse) ↔
      Ancestor d p m ∧ m < x ∧ ¬ Ancestor d m x := by
  simp only [List.mem_flatMap, List.mem_reverse, (h.precedingSiblings_spec x).2, h.mem_subtree]
  constructor
  · rintro ⟨s, ⟨q, hxq, hs, hsx⟩, hsm⟩
    obtain rfl : q = p := Option.some.inj (hxq.symm.trans hp)
    have hps : Ancestor d q s := .parent hs
    have hpm : Ancestor d q m := by
      rcases hsm with rfl | hsm
      · exact hps
      · exact hps.trans hsm
    refine ⟨hpm, h.subtree_lt_of_lt hsx (h.not_ancestor_of_siblings hs hp)
      ((h.mem_subtree).mpr hsm) ((h.mem_subtree).mpr (.inl rfl)), fun hmx => ?_⟩
    -- what lies above `x` is its parent or above it, and so before `m`
    have hlt := h.ancestor_lt hpm
    rcases (ancestor_iff_of_parent? hp).mp hmx with rfl | hmp
    · omega
    · have := h.ancestor_lt hmp
      omega
  · rintro ⟨hpm, hmx, -⟩
    obtain ⟨s, hs, hsm⟩ := ancestor_iff_exists_child.mp hpm
    have hsle : s ≤ m := by
      rcases hsm with rfl | hsm
      · exact le_rfl
      · exact Nat.le_of_lt (h.ancestor_lt hsm)
    exact ⟨s, ⟨p, hp, hs, by omega⟩, hsm.imp Eq.symm id⟩

theorem precedingBlock_sorted (x : Nat) :
    ((d.precedingSiblings x).flatMap fun s => (d.subtree s).reverse).Pairwise (· > ·) := by
  obtain ⟨hsorted, hmem⟩ := h.precedingSiblings_spec x
  refine List.pairwise_flatMap.mpr
    ⟨fun s _ => List.pairwise_reverse.mpr (h.subtree_sorted s), ?_⟩
  refine hsorted.imp_of_mem fun hs hs' hgt u hu v hv => ?_
  obtain ⟨q, hxq, hq, -⟩ := (hmem _).mp hs
  obtain ⟨q', hxq', hq', -⟩ := (hmem _).mp hs'
  rw [hxq] at hxq'
  cases hxq'
  exact h.subtree_lt_of_lt hgt (h.not_ancestor_of_siblings hq' hq) (List.mem_reverse.mp hv)
    (List.mem_reverse.mp hu)

theorem following_of_parent? {x p : Nat} (hp : d.parent? x = some p) :
    d.following x = (d.followingSiblings x).flatMap d.subtree ++ d.following p := by
  rw [following, following, h.ancestors_of_parent? hp, List.flatMap_cons]

theorem preceding_of_parent? {x p : Nat} (hp : d.parent? x = some p) :
    d.preceding x =
      (d.precedingSiblings x).flatMap (fun s => (d.subtree s).reverse) ++ d.preceding p := by
  rw [preceding, preceding, h.ancestors_of_parent? hp, List.flatMap_cons]

/-- The following nodes are the nodes after a node that are not below it, in document order. -/
theorem following_spec (x : Nat) (hx : x < d.size) :
    (d.following x).Pairwise (· < ·) ∧
      ∀ m, m ∈ d.following x ↔ m < d.size ∧ x < m ∧ ¬ Ancestor d x m := by
  induction x using Nat.strong_induction_on with
  | _ x ih =>
    cases hp : d.parent? x with
    | none =>
      -- only the document node has no parent, and every other node lies below it
      obtain rfl := (h.parent?_eq_none_iff hx).mp hp
      have hnil : d.following 0 = [] := by
        simp [following, ancestors_eq_nil hp, (h.siblings_nil hp).1]
      refine ⟨by simp [hnil], fun m => ?_⟩
      simp only [hnil, List.not_mem_nil, false_iff, not_and, not_not]
      exact fun hm h0 => h.ancestor_zero h0 hm
    | some p =>
      have hpx := h.parent_lt hp
      obtain ⟨hsorted, hmem⟩ := ih p hpx (by omega)
      rw [h.following_of_parent? hp]
      refine ⟨List.pairwise_append.mpr ⟨h.followingBlock_sorted x, hsorted, ?_⟩, fun m => ?_⟩
      · intro u hu v hv
        obtain ⟨-, hpv, hnpv⟩ := (hmem v).mp hv
        exact h.lt_of_not_ancestor ((h.mem_followingBlock hp).mp hu).1 hpv hnpv
      · rw [List.mem_append, h.mem_followingBlock hp, hmem]
        have hpx' : Ancestor d p x := .parent hp
        constructor
        · rintro (⟨hpm, hxm, hnxm⟩ | ⟨hm, hpm, hnpm⟩)
          · exact ⟨lt_size_of_ancestor hpm, hxm, hnxm⟩
          · refine ⟨hm, ?_, fun hxm => hnpm (hpx'.trans hxm)⟩
            -- `p` lies above every node from itself to `x`, and not above `m`
            rcases Nat.lt_trichotomy m x with hmx | rfl | hxm
            · exact absurd (h.contiguous p m x hpm (Nat.le_of_lt hmx) hpx') hnpm
            · exact absurd hpx' hnpm
            · exact hxm
        · rintro ⟨hm, hxm, hnxm⟩
          by_cases hpm : Ancestor d p m
          · exact .inl ⟨hpm, hxm, hnxm⟩
          · exact .inr ⟨hm, by omega, hpm⟩

/-- The preceding nodes are the nodes before a node that are not above it, nearest first. -/
theorem preceding_spec (x : Nat) (hx : x < d.size) :
    (d.preceding x).Pairwise (· > ·) ∧ ∀ m, m ∈ d.preceding x ↔ m < x ∧ ¬ Ancestor d m x := by
  induction x using Nat.strong_induction_on with
  | _ x ih =>
    cases hp : d.parent? x with
    | none =>
      obtain rfl := (h.parent?_eq_none_iff hx).mp hp
      have hnil : d.preceding 0 = [] := by
        simp [preceding, ancestors_eq_nil hp, (h.siblings_nil hp).2]
      simp [hnil]
    | some p =>
      have hpx := h.parent_lt hp
      obtain ⟨hsorted, hmem⟩ := ih p hpx (by omega)
      rw [h.preceding_of_parent? hp]
      refine ⟨List.pairwise_append.mpr ⟨h.precedingBlock_sorted x, hsorted, ?_⟩, fun m => ?_⟩
      · intro u hu v hv
        have hpu := h.ancestor_lt ((h.mem_precedingBlock hp).mp hu).1
        have hvp := ((hmem v).mp hv).1
        omega
      · rw [List.mem_append, h.mem_precedingBlock hp, hmem]
        have hpx' : Ancestor d p x := .parent hp
        constructor
        · rintro (⟨-, hmx, hnmx⟩ | ⟨hmp, hnmp⟩)
          · exact ⟨hmx, hnmx⟩
          · refine ⟨by omega, fun hmx => ?_⟩
            rcases (ancestor_iff_of_parent? hp).mp hmx with rfl | hmp'
            · omega
            · exact hnmp hmp'
        · rintro ⟨hmx, hnmx⟩
          by_cases hpm : Ancestor d p m
          · exact .inl ⟨hpm, hmx, hnmx⟩
          · -- a node between the parent and `x` would lie below the parent
            refine .inr ⟨?_, fun hmp => hnmx (hmp.trans hpx')⟩
            rcases Nat.lt_trichotomy m p with hmp | rfl | hpm'
            · exact hmp
            · exact absurd hpx' hnmx
            · exact absurd (h.contiguous p m x hpm' (Nat.le_of_lt hmx) hpx') hpm

end Arena

end XmlPointer.Document

namespace XmlPointer.Path

open Document

/-- The reverse axes, whose nodes come nearest first, against document order. -/
def Axis.isReverse : Axis → Bool
  | .parent | .ancestor | .ancestorOrSelf | .precedingSibling | .preceding => true
  | _ => false

/-- Node `m` lies on axis `a` from node `n`, by the definition of the axis: following nodes
come after `n` and are not below it, preceding nodes come before it and are not above it.
Attributes and namespaces are no nodes of the document. -/
def OnAxis (d : Document) (n m : Nat) : Axis → Prop
  | .child => d.parent? m = some n
  | .descendant => Ancestor d n m
  | .descendantOrSelf => m = n ∨ Ancestor d n m
  | .parent => d.parent? n = some m
  | .ancestor => Ancestor d m n
  | .ancestorOrSelf => m = n ∨ Ancestor d m n
  | .followingSibling => ∃ p, d.parent? n = some p ∧ d.parent? m = some p ∧ n < m
  | .precedingSibling => ∃ p, d.parent? n = some p ∧ d.parent? m = some p ∧ m < n
  | .following => n < m ∧ ¬ Ancestor d n m
  | .preceding => m < n ∧ ¬ Ancestor d m n
  | .selfAxis => m = n
  | .attribute | .namespaceAxis => False

variable {d : Document} {n : Nat}

theorem mem_axisNodes (h : d.Arena) (hn : n < d.size) (a : Axis) (m : Nat) :
    m ∈ axisNodes d n a ↔ m < d.size ∧ OnAxis d n m a := by
  have hanc : ∀ {m}, Ancestor d m n → m < d.size := fun ha => by
    have := h.ancestor_lt ha
    omega
  cases a with
  | child =>
    rw [axisNodes, OnAxis, h.mem_children, and_iff_right_of_imp lt_size_of_parent?]
  | descendant =>
    rw [axisNodes, OnAxis, (h.descendants_spec n).2, and_iff_right_of_imp lt_size_of_ancestor]
  | descendantOrSelf =>
    rw [axisNodes, OnAxis, List.mem_cons, (h.descendants_spec n).2]
    refine (and_iff_right_of_imp ?_).symm
    rintro (rfl | hm)
    · exact hn
    · exact lt_size_of_ancestor hm
  | parent =>
    rw [axisNodes, OnAxis, Option.mem_toList]
    refine (and_iff_right_of_imp fun hp => ?_).symm
    have := h.parent_lt hp
    omega
  | ancestor =>
    rw [axisNodes, OnAxis, h.mem_ancestors, and_iff_right_of_imp hanc]
  | ancestorOrSelf =>
    rw [axisNodes, OnAxis, List.mem_cons, h.mem_ancestors]
    refine (and_iff_right_of_imp ?_).symm
    rintro (rfl | hm)
    · exact hn
    · exact hanc hm
  | followingSibling =>
    rw [axisNodes, OnAxis, (h.followingSiblings_spec n).2]
    refine (and_iff_right_of_imp ?_).symm
    rintro ⟨p, -, hp, -⟩
    exact lt_size_of_parent? hp
  | precedingSibling =>
    rw [axisNodes, OnAxis, (h.precedingSiblings_spec n).2]
    refine (and_iff_right_of_imp ?_).symm
    rintro ⟨p, -, hp, -⟩
    exact lt_size_of_parent? hp
  | following =>
    rw [axisNodes, OnAxis, (h.following_spec n hn).2]
  | preceding =>
    rw [axisNodes, OnAxis, (h.preceding_spec n hn).2]
    refine (and_iff_right_of_imp fun hm => ?_).symm
    have := hm.1
    omega
  | selfAxis =>
    rw [axisNodes, OnAxis, List.mem_singleton]
    refine (and_iff_right_of_imp ?_).symm
    rintro rfl
    exact hn
  | _ => simp [axisNodes, OnAxis]

theorem axisNodes_sorted (h : d.Arena) (hn : n < d.size) (a : Axis) :
    (axisNodes d n a).Pairwise fun x y => if a.isReverse then y < x else x < y := by
  cases a with
  | child => simpa [axisNodes, Axis.isReverse] using h.children_sorted n
  | descendant => simpa [axisNodes, Axis.isReverse] using (h.descendants_spec n).1
  | descendantOrSelf => simpa [axisNodes, Axis.isReverse, subtree] using h.subtree_sorted n
  | parent => cases hp : d.parent? n <;> simp [axisNodes, hp]
  | ancestor => simpa [axisNodes, Axis.isReverse] using h.ancestors_sorted n
  | ancestorOrSelf =>
    simp only [axisNodes, Axis.isReverse, if_true]
    exact List.pairwise_cons.mpr ⟨fun m hm => h.ancestor_lt ((h.mem_ancestors).mp hm),
      h.ancestors_sorted n⟩
  | followingSibling => simpa [axisNodes, Axis.isReverse] using (h.followingSiblings_spec n).1
  | precedingSibling => simpa [axisNodes, Axis.isReverse] using (h.precedingSiblings_spec n).1
  | following => simpa [axisNodes, Axis.isReverse] using (h.following_spec n hn).1
  | preceding => simpa [axisNodes, Axis.isReverse] using (h.preceding_spec n hn).1
  | selfAxis => simp [axisNodes]
  | _ => simp [axisNodes]

theorem nodup_axisNodes (h : d.Arena) (hn : n < d.size) (a : Axis) : (axisNodes d n a).Nodup :=
  (axisNodes_sorted h hn a).imp fun hxy => by split at hxy <;> omega

/-- Self, ancestors, descendants, following and preceding nodes: every node of the document
lies on exactly one of these axes. -/
theorem axes_partition (h : d.Arena) (hn : n < d.size) :
    (axisNodes d n .selfAxis ++ axisNodes d n .ancestor ++ axisNodes d n .descendant ++
      axisNodes d n .following ++ axisNodes d n .preceding).Perm (List.range d.size) := by
  have hlt : ∀ {a b}, Ancestor d a b → a < b := fun hab => h.ancestor_lt hab
  refine (List.perm_ext_iff_of_nodup ?_ List.nodup_range).mpr fun m => ?_
  · simp only [List.nodup_append, nodup_axisNodes h hn, List.mem_append, mem_axisNodes h hn,
      OnAxis, true_and]
    refine ⟨⟨⟨?_, ?_⟩, ?_⟩, ?_⟩ <;> intro a ha b hb hab <;> subst hab
    · obtain ⟨-, rfl⟩ := ha
      exact absurd (hlt hb.2) (lt_irrefl _)
    · rcases ha with ⟨-, rfl⟩ | ⟨-, ha⟩
      · exact absurd (hlt hb.2) (lt_irrefl _)
      · exact absurd (hlt ha) (by have := hlt hb.2; omega)
    · obtain ⟨-, hna, hnot⟩ := hb
      rcases ha with (⟨-, rfl⟩ | ⟨-, ha⟩) | ⟨-, ha⟩
      · omega
      · have := hlt ha
        omega
      · exact hnot ha
    · obtain ⟨-, han, hnot⟩ := hb
      rcases ha with ((⟨-, rfl⟩ | ⟨-, ha⟩) | ⟨-, ha⟩) | ⟨-, hna, -⟩
      · omega
      · exact hnot ha
      · have := hlt ha
        omega
      · omega
  · simp only [List.mem_append, mem_axisNodes h hn, OnAxis, List.mem_range]
    constructor
    · rintro ((((⟨hm, -⟩ | ⟨hm, -⟩) | ⟨hm, -⟩) | ⟨hm, -⟩) | ⟨hm, -⟩) <;> exact hm
    · intro hm
      -- a node is `n`, or before it and above it or not, or after it and below it or not
      rcases Nat.lt_trichotomy m n with hmn | rfl | hnm
      · by_cases ha : Ancestor d m n
        · exact .inl (.inl (.inl (.inr ⟨hm, ha⟩)))
        · exact .inr ⟨hm, hmn, ha⟩
      · exact .inl (.inl (.inl (.inl ⟨hm, rfl⟩)))
      · by_cases ha : Ancestor d n m
        · exact .inl (.inl (.inr ⟨hm, ha⟩))
        · exact .inl (.inr ⟨hm, hnm, ha⟩)

/-- In every parsed document, each axis from a node lists exactly the nodes on it, in increasing
id order, which is document order, for the forward axes and in decreasing order for the reverse
ones, so each node once; the node itself, its ancestors, its descendants and its following and
preceding nodes are every node of the document once; and the walk of the descendants lists
exactly the nodes below the node, in document order. -/
theorem axisNodes_exact {input : List UInt8} {strict : Bool} (hd : Document.parse input strict = .ok d)
    (hn : n < d.size) :
    (∀ a m, m ∈ axisNodes d n a ↔ m < d.size ∧ OnAxis d n m a) ∧
      (∀ a, (axisNodes d n a).Pairwise fun x y => if a.isReverse then y < x else x < y) ∧
      (axisNodes d n .selfAxis ++ axisNodes d n .ancestor ++ axisNodes d n .descendant ++
        axisNodes d n .following ++ axisNodes d n .preceding).Perm (List.range d.size) ∧
      (d.descendants n).Pairwise (· < ·) ∧ ∀ m, m ∈ d.descendants n ↔ Ancestor d n m := by
  have h := Document.parse_arena hd
  exact ⟨mem_axisNodes h hn, axisNodes_sorted h hn, axes_partition h hn, h.descendants_spec n⟩

/-- The last child of the root: two ancestors before it, its earlier sibling's subtree after
them, nothing below and nothing after it. -/
theorem axisNodes_of_last_child :
    ∃ d, Document.parse "<r><a><b/></a><c/></r>".toUTF8.toList true = .ok d ∧ 4 < d.size ∧
      (axisNodes d 4 .selfAxis ++ axisNodes d 4 .ancestor ++ axisNodes d 4 .descendant ++
        axisNodes d 4 .following ++ axisNodes d 4 .preceding).Perm (List.range d.size) := by
  have hsize : (Document.parse "<r><a><b/></a><c/></r>".toUTF8.toList true).toOption.map
      (fun d => decide (4 < d.size)) = some true := by
    decide +kernel
  cases hd : Document.parse "<r><a><b/></a><c/></r>".toUTF8.toList true with
  | error e => rw [hd] at hsize; cases hsize
  | ok d =>
    rw [hd] at hsize
    simp only [Except.toOption, Option.map_some, Option.some.injEq, decide_eq_true_eq] at hsize
    exact ⟨d, rfl, hsize, (axisNodes_exact hd hsize).2.2.1⟩

end XmlPointer.Path
