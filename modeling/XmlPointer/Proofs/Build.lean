import Mathlib.Data.List.Find
import XmlPointer.Document.Build
import XmlPointer.Proofs.Tree

/-! # The tree a build leaves

Every event of a build appends at most one node, linked in as the last child of the innermost
open element, or closes open elements. The invariant `Builder.Inv` ties the stack of open
elements to the tree: the stack is the path from the innermost open element up to the document
node, and every node after the innermost open element descends from it. Appending at the end of
that path keeps the arena contiguous and the links of every child list in step with the parent
links, and closing an element moves the path one step up. Whichever way elements end (a matching
end tag, a lenient close of several, a stray end tag, the end of the input), every built
document is an ordered tree numbered in pre-order, and its elements carry the attributes of
their start tags in order. -/
namespace XmlPointer

open Document

/-- A stored attribute keeps the name, the parts of the name, the value and the declaration
flag of the attribute read from its tag. -/
def Attr.Stores (a : Attr) (m : Markup.Attribute) : Prop :=
  a.name = Builder.text m.name ∧ a.localName = Builder.text m.localPart ∧
    a.prefixName = (m.prefixPart.map Builder.text).getD "" ∧ a.value = Builder.text m.value ∧
    a.isDeclaration = m.isDeclaration

def Node.Detached (n : Node) : Prop :=
  n.firstChild = none ∧ n.lastChild = none ∧ n.prevSibling = none ∧ n.nextSibling = none

theorem Node.unlinked_detached {kind : NodeKind} {parent : Option Nat}
    {name localName prefixName nsUri value : String} {attributes : Array Attr} {depth : UInt16}
    {offset : UInt32} :
    (Node.unlinked kind parent name localName prefixName nsUri value attributes depth
      offset).Detached :=
  ⟨rfl, rfl, rfl, rfl⟩

/-- The tag of a start or empty element event. -/
def Markup.Event.tag? : Markup.Event → Option Markup.StartTag
  | .start t | .empty t => some t
  | _ => none

def Markup.startTags (evs : List (Nat × Markup.Event)) : List Markup.StartTag :=
  evs.filterMap (·.2.tag?)

theorem Document.LinksFit.of_childIds_eq {d : Document} {p : Nat} {cs : List Nat}
    (hc : d.childIds p = cs) (first : d.firstChild? p = cs.head?)
    (last : d.lastChild? p = cs.getLast?)
    (next : ∀ j (h : j < cs.length), d.nextSibling? cs[j] = cs[j + 1]?)
    (prev : ∀ j (h : j < cs.length),
      d.prevSibling? cs[j] = if j = 0 then none else cs[j - 1]?) : d.LinksFit p := by
  subst hc
  exact ⟨first, last, next, prev⟩

theorem Document.Arena.childIds_eq_nil {d : Document} (h : d.Arena) {q : Nat} (hq : d.size ≤ q) :
    d.childIds q = [] := by
  refine List.filter_eq_nil_iff.mpr fun i hi hpi => ?_
  have := h.parent_lt (of_decide_eq_true hpi)
  have := List.mem_range.mp hi
  omega

namespace Builder

variable {b b' : Builder}

def arena (b : Builder) : Document :=
  ⟨b.nodes, none, [], #[], none⟩

/-- The open elements, innermost first: each an element whose parent is the next one out, the
outermost a child of the document node. -/
def OpenPath (d : Document) : List Nat → Prop
  | [] => True
  | s :: rest => d.kind? s = some .element ∧ d.parent? s = some (rest.head?.getD 0) ∧
    OpenPath d rest

theorem OpenPath.congr {d d' : Document} (hn : d'.nodes = d.nodes) :
    ∀ {l : List Nat}, OpenPath d l → OpenPath d' l
  | [], _ => trivial
  | _ :: _, ⟨hk, hp, hrest⟩ =>
    ⟨by rwa [kind?_congr hn], by rwa [parent?_congr hn], OpenPath.congr hn hrest⟩

theorem OpenPath.ancestors_eq {d : Document} (ha : d.Arena) :
    ∀ {x : Nat} {l : List Nat}, OpenPath d (x :: l) → d.ancestors x = l ++ [0]
  | x, [], ⟨_, hp, _⟩ => by
    have hp : d.parent? x = some 0 := hp
    rw [ha.ancestors_of_parent? hp, ha.ancestors_zero]
    rfl
  | x, y :: l, ⟨_, hp, hpath⟩ => by
    have hp : d.parent? x = some y := hp
    rw [ha.ancestors_of_parent? hp, OpenPath.ancestors_eq ha hpath]
    rfl

/-- The invariant of a build: a tree under construction whose open elements form the path
from the innermost one up to the document node, every later node descending from the
innermost open element, and the root the first element child of the document node. -/
structure Inv (b : Builder) : Prop where
  arena : Arena b.arena
  path : OpenPath b.arena b.stack
  frontier : ∀ m, b.parent < m → m < b.nodes.size → Ancestor b.arena b.parent m
  root : b.root = (b.arena.childIds 0).find? fun i => b.arena.kind? i = some .element

/-! ## Appending a node -/

section Append

variable (n : Node)

@[simp] theorem arena_size : b.arena.size = b.nodes.size := rfl

@[simp] theorem size_linkChild (nodes : Array Node) (p c : Nat) :
    (linkChild nodes p c).size = nodes.size := by
  unfold linkChild
  split <;> simp

@[simp] theorem append_nodes_size : (b.append n).nodes.size = b.nodes.size + 1 := by
  simp [append]

@[simp] theorem append_stack : (b.append n).stack = b.stack := rfl

@[simp] theorem append_root : (b.append n).root = b.root := rfl

@[simp] theorem append_parent : (b.append n).parent = b.parent := rfl

/-- What appending does to the nodes: the new node at the end, after the parent's last child
if it had one; the parent takes it as last child, and as first child if it had none; and the
old last child takes it as next sibling. -/
theorem node?_append (hp : b.parent < b.nodes.size)
    (hl : ∀ l, b.arena.lastChild? b.parent = some l → b.parent < l ∧ l < b.nodes.size) (m : Nat) :
    (b.append n).arena.node? m =
      if m = b.nodes.size then
        some { n with prevSibling := (b.arena.lastChild? b.parent).or n.prevSibling }
      else (b.arena.node? m).map fun x => { x with
        firstChild := if m = b.parent ∧ b.arena.lastChild? b.parent = none then some b.nodes.size
          else x.firstChild
        lastChild := if m = b.parent then some b.nodes.size else x.lastChild
        nextSibling := if b.arena.lastChild? b.parent = some m then some b.nodes.size
          else x.nextSibling } := by
  have hlast : ((b.nodes.push n)[b.parent]?).bind (·.lastChild) = b.arena.lastChild? b.parent := by
    simp [arena, lastChild?, node?, Array.getElem?_push_lt hp, hp]
  simp only [append, linkChild, hlast]
  -- the three updates touch the parent, the old last child and the new node, all distinct
  cases hlc : b.arena.lastChild? b.parent with
  | none =>
    simp only [arena, node?, Array.getElem?_modify, Array.getElem?_push]
    by_cases hm : m = b.nodes.size
    · subst hm
      simp [Nat.ne_of_lt hp]
    · by_cases hpm : m = b.parent
      · subst hpm
        simp [hm, Option.map_map, Function.comp_def]
      · simp [hm, hpm, Ne.symm hpm]
  | some l =>
    obtain ⟨hpl, hlN⟩ := hl l hlc
    have hne : b.parent ≠ l ∧ b.parent ≠ b.nodes.size ∧ l ≠ b.nodes.size :=
      ⟨Nat.ne_of_lt hpl, Nat.ne_of_lt hp, Nat.ne_of_lt hlN⟩
    simp only [arena, node?, Array.getElem?_modify, Array.getElem?_push]
    by_cases hm : m = b.nodes.size
    · subst hm
      simp [hne]
    · by_cases hpm : m = b.parent
      · subst hpm
        simp [hne, Ne.symm hne.1, Ne.symm hne.2.1]
      · by_cases hlm : m = l
        · subst hlm
          simp [hm, hpm, Ne.symm hm, Ne.symm hpm]
        · simp [hm, hpm, Ne.symm hm, Ne.symm hpm, Ne.symm hlm]

variable {n} (hp : b.parent < b.nodes.size)
  (hl : ∀ l, b.arena.lastChild? b.parent = some l → b.parent < l ∧ l < b.nodes.size)
include hp hl

theorem node?_append_of_ne {m : Nat} (hm : m ≠ b.nodes.size) :
    ∃ fc lc ns : Node → Option Nat, (b.append n).arena.node? m = (b.arena.node? m).map fun x =>
      { x with firstChild := fc x, lastChild := lc x, nextSibling := ns x } := by
  rw [node?_append n hp hl, if_neg hm]
  exact ⟨_, _, _, rfl⟩

theorem node?_append_of_node? {m : Nat} {x : Node} (hx : b.arena.node? m = some x) :
    ∃ fc lc ns, (b.append n).arena.node? m =
      some { x with firstChild := fc, lastChild := lc, nextSibling := ns } := by
  obtain ⟨fc, lc, ns, he⟩ := node?_append_of_ne hp hl (Nat.ne_of_lt (lt_size_of_node? hx)) (n := n)
  rw [hx, Option.map_some] at he
  exact ⟨_, _, _, he⟩

theorem exists_node?_of_append {m : Nat} {x : Node} (hm : m ≠ b.nodes.size)
    (hx : (b.append n).arena.node? m = some x) : ∃ x₀ fc lc ns, b.arena.node? m = some x₀ ∧
      x = { x₀ with firstChild := fc, lastChild := lc, nextSibling := ns } := by
  obtain ⟨fc, lc, ns, he⟩ := node?_append_of_ne hp hl hm (n := n)
  rw [he] at hx
  obtain ⟨x₀, hx₀, rfl⟩ := Option.map_eq_some_iff.mp hx
  exact ⟨x₀, _, _, _, hx₀, rfl⟩

theorem parent?_append (m : Nat) :
    (b.append n).arena.parent? m = if m = b.nodes.size then n.parent else b.arena.parent? m := by
  split_ifs with hm
  · simp only [parent?, node?_append n hp hl, if_pos hm]
    rfl
  · obtain ⟨fc, lc, ns, he⟩ := node?_append_of_ne hp hl hm (n := n)
    simp only [parent?, he, Option.bind_map]
    rfl

theorem kind?_append (m : Nat) :
    (b.append n).arena.kind? m = if m = b.nodes.size then some n.kind else b.arena.kind? m := by
  split_ifs with hm
  · simp only [kind?, node?_append n hp hl, if_pos hm]
    rfl
  · obtain ⟨fc, lc, ns, he⟩ := node?_append_of_ne hp hl hm (n := n)
    simp only [kind?, he, Option.map_map]
    rfl

theorem attributes_append {m : Nat} (hm : m < b.nodes.size) :
    (b.append n).arena.attributes m = b.arena.attributes m := by
  obtain ⟨fc, lc, ns, he⟩ := node?_append_of_ne hp hl (Nat.ne_of_lt hm) (n := n)
  simp only [Document.attributes, he]
  cases b.arena.node? m <;> rfl

theorem firstChild?_append (q : Nat) :
    (b.append n).arena.firstChild? q =
      if q = b.nodes.size then n.firstChild
      else if q = b.parent ∧ b.arena.lastChild? b.parent = none then some b.nodes.size
      else b.arena.firstChild? q := by
  simp only [firstChild?, node?_append n hp hl]
  by_cases hN : q = b.nodes.size
  · simp only [if_pos hN]
    rfl
  · by_cases hq : q = b.parent
    · subst hq
      obtain ⟨pn, hpn⟩ := exists_node?_of_lt (d := b.arena) hp
      cases b.arena.lastChild? b.parent <;> simp [hN, hpn]
    · cases b.arena.node? q <;> simp [hN, hq]

theorem lastChild?_append (q : Nat) :
    (b.append n).arena.lastChild? q =
      if q = b.nodes.size then n.lastChild
      else if q = b.parent then some b.nodes.size else b.arena.lastChild? q := by
  simp only [lastChild?, node?_append n hp hl]
  by_cases hN : q = b.nodes.size
  · simp only [if_pos hN]
    rfl
  · by_cases hq : q = b.parent
    · subst hq
      obtain ⟨pn, hpn⟩ := exists_node?_of_lt (d := b.arena) hp
      simp [hN, hpn]
    · cases b.arena.node? q <;> simp [hN, hq]

theorem nextSibling?_append (q : Nat) :
    (b.append n).arena.nextSibling? q =
      if q = b.nodes.size then n.nextSibling
      else if b.arena.lastChild? b.parent = some q then some b.nodes.size
      else b.arena.nextSibling? q := by
  simp only [nextSibling?, node?_append n hp hl]
  by_cases hN : q = b.nodes.size
  · simp only [if_pos hN]
    rfl
  · by_cases hq : b.arena.lastChild? b.parent = some q
    · obtain ⟨ln, hln⟩ := exists_node?_of_lt (d := b.arena) (hl q hq).2
      simp [hN, hq, hln]
    · cases b.arena.node? q <;> simp [hN, hq]

theorem prevSibling?_append (q : Nat) :
    (b.append n).arena.prevSibling? q =
      if q = b.nodes.size then (b.arena.lastChild? b.parent).or n.prevSibling
      else b.arena.prevSibling? q := by
  simp only [prevSibling?, node?_append n hp hl]
  by_cases hN : q = b.nodes.size
  · simp only [if_pos hN]
    rfl
  · cases b.arena.node? q <;> simp [hN]

theorem open_path_append :
    ∀ {st : List Nat}, OpenPath b.arena st → OpenPath (b.append n).arena st
  | [], _ => trivial
  | s :: rest, ⟨hk, hps, hrest⟩ => by
    obtain ⟨ns, hns, -⟩ := Option.map_eq_some_iff.mp hk
    have hs : s ≠ b.nodes.size := Nat.ne_of_lt (lt_size_of_node? hns)
    refine ⟨?_, ?_, open_path_append hrest⟩
    · rw [kind?_append hp hl, if_neg hs, hk]
    · rw [parent?_append hp hl, if_neg hs, hps]

end Append

/-! ## The invariant -/

namespace Inv

variable (h : Inv b)
include h

theorem parent_lt_size : b.parent < b.nodes.size := by
  cases hs : b.stack with
  | nil =>
    obtain ⟨n0, h0, -⟩ := h.arena.document_node
    simpa [parent, hs] using lt_size_of_node? h0
  | cons s rest =>
    have hpath := h.path
    rw [hs] at hpath
    obtain ⟨hk, -⟩ := hpath
    obtain ⟨n, hn, -⟩ := Option.map_eq_some_iff.mp hk
    simpa [parent, hs] using lt_size_of_node? hn

theorem lastChild_lt :
    ∀ l, b.arena.lastChild? b.parent = some l → b.parent < l ∧ l < b.nodes.size := by
  intro l hl
  rw [(h.arena.links b.parent).last] at hl
  have hpl := mem_childIds.mp (List.mem_of_getLast? hl)
  exact ⟨h.arena.parent_lt hpl, lt_size_of_parent? hpl⟩

theorem parent_node : ∃ pn, b.arena.node? b.parent = some pn ∧
    (pn.kind = .element ∨ pn.kind = .document) := by
  cases hs : b.stack with
  | nil =>
    obtain ⟨n0, h0, hk, -⟩ := h.arena.document_node
    exact ⟨n0, by simpa [parent, hs] using h0, .inr hk⟩
  | cons s rest =>
    have hpath := h.path
    rw [hs] at hpath
    obtain ⟨hk, -⟩ := hpath
    obtain ⟨n, hn, hnk⟩ := Option.map_eq_some_iff.mp hk
    exact ⟨n, by simpa [parent, hs] using hn, .inl hnk⟩

theorem childDepth_eq {pn : Node} (hpn : b.arena.node? b.parent = some pn) :
    b.childDepth = pn.depth + 1 := by
  rw [h.arena.depth_eq hpn, childDepth]
  cases hs : b.stack with
  | nil =>
    simp [parent, hs, h.arena.ancestors_zero]
  | cons s rest =>
    have hpath := h.path
    rw [hs] at hpath
    have hps : b.parent = s := by simp [parent, hs]
    rw [hps, hpath.ancestors_eq h.arena]
    simp [UInt16.ofNat_add]

variable {n : Node} (hn : n.parent = some b.parent)
include hn

omit hn in
theorem ancestor_append_of_lt {a m : Nat} (ha : Ancestor b.arena a m) (hm : m < b.nodes.size) :
    Ancestor (b.append n).arena a m := by
  have hpar := parent?_append h.parent_lt_size h.lastChild_lt (n := n)
  induction ha with
  | parent hpa =>
    exact .parent (by rw [hpar, if_neg (Nat.ne_of_lt hm)]; exact hpa)
  | up hpq _ ih =>
    have hq := h.arena.parent_lt hpq
    exact .up (by rw [hpar, if_neg (Nat.ne_of_lt hm)]; exact hpq) (ih (by omega))

/-- The proper ancestors after an append: those of the earlier nodes stay, and the new node
has its parent and the parent's ancestors. -/
theorem ancestor_append_iff {a m : Nat} :
    Ancestor (b.append n).arena a m ↔ (m < b.nodes.size ∧ Ancestor b.arena a m) ∨
      (m = b.nodes.size ∧ (a = b.parent ∨ Ancestor b.arena a b.parent)) := by
  have hp := h.parent_lt_size
  have hpar := parent?_append hp h.lastChild_lt (n := n)
  constructor
  · intro ha
    induction ha with
    | @parent m hpa =>
      rw [hpar] at hpa
      split_ifs at hpa with hm
      · rw [hn] at hpa
        cases hpa
        exact .inr ⟨hm, .inl rfl⟩
      · exact .inl ⟨by have := lt_size_of_parent? hpa; simp_all, .parent hpa⟩
    | @up m q hpq _ ih =>
      rw [hpar] at hpq
      split_ifs at hpq with hm
      · rw [hn] at hpq
        cases hpq
        rcases ih with ⟨-, hq⟩ | ⟨hq, -⟩
        · exact .inr ⟨hm, .inr hq⟩
        · omega
      · have hqm := h.arena.parent_lt hpq
        have hmN : m < b.nodes.size := by have := lt_size_of_parent? hpq; simp_all
        rcases ih with ⟨-, hq⟩ | ⟨hq, -⟩
        · exact .inl ⟨hmN, .up hpq hq⟩
        · omega
  · rintro (⟨hm, ha⟩ | ⟨rfl, ha⟩)
    · exact h.ancestor_append_of_lt ha hm
    · have hpN : (b.append n).arena.parent? b.nodes.size = some b.parent := by
        rw [hpar, if_pos rfl, hn]
      rcases ha with rfl | ha
      · exact .parent hpN
      · exact .up hpN (h.ancestor_append_of_lt ha hp)

theorem childIds_append (q : Nat) :
    (b.append n).arena.childIds q =
      if q = b.parent then b.arena.childIds q ++ [b.nodes.size] else b.arena.childIds q := by
  have hpar := parent?_append h.parent_lt_size h.lastChild_lt (n := n)
  have hold : ((List.range b.nodes.size).filter fun i => (b.append n).arena.parent? i = some q) =
      b.arena.childIds q := by
    refine List.filter_congr fun i hi => ?_
    rw [hpar, if_neg (Nat.ne_of_lt (List.mem_range.mp hi))]
  have hnew : ((b.append n).arena.childIds q) =
      b.arena.childIds q ++ [b.nodes.size].filter fun i =>
        (b.append n).arena.parent? i = some q := by
    rw [← hold]
    simp only [childIds, arena_size, append_nodes_size, List.range_succ, List.filter_append]
  have hN : (b.append n).arena.parent? b.nodes.size = some b.parent := by
    rw [hpar, if_pos rfl, hn]
  rw [hnew]
  by_cases hq : q = b.parent
  · subst hq
    simp [hN]
  · simp [hN, hq, Ne.symm hq]

variable (hd : n.Detached)
include hd

/-- The parent's child list after an append is linked through the new node at its end. -/
theorem linksFit_append_parent : (b.append n).arena.LinksFit b.parent := by
  have hp := h.parent_lt_size
  have hl := h.lastChild_lt
  have hfit := h.arena.links b.parent
  have hcs := h.childIds_append hn b.parent
  rw [if_pos rfl] at hcs
  have hlt : ∀ x ∈ b.arena.childIds b.parent, x < b.nodes.size :=
    fun x hx => lt_size_of_parent? (mem_childIds.mp hx)
  have hnodup : (b.arena.childIds b.parent).Nodup :=
    (childIds_sorted (d := b.arena) b.parent).imp Nat.ne_of_lt
  refine LinksFit.of_childIds_eq hcs ?_ ?_ ?_ ?_
  · rw [firstChild?_append hp hl, if_neg (Nat.ne_of_lt hp), hfit.last, hfit.first]
    cases b.arena.childIds b.parent <;> simp
  · rw [lastChild?_append hp hl, if_neg (Nat.ne_of_lt hp), if_pos rfl]
    simp
  · intro j hj
    rw [List.length_append, List.length_singleton] at hj
    rcases Nat.lt_succ_iff_lt_or_eq.mp hj with hj | rfl
    · rw [List.getElem_append_left hj]
      have hx := hlt _ (List.getElem_mem hj)
      rw [nextSibling?_append hp hl, if_neg (Nat.ne_of_lt hx), hfit.last,
        List.getLast?_eq_getElem?]
      by_cases hend : j + 1 = (b.arena.childIds b.parent).length
      · -- the old last child now links to the new node
        rw [if_pos (by rw [← hend, Nat.add_sub_cancel, List.getElem?_eq_getElem hj]),
          List.getElem?_append_right (by omega)]
        simp [← hend]
      · have hj1 : j + 1 < (b.arena.childIds b.parent).length := by omega
        have hne : (b.arena.childIds b.parent)[(b.arena.childIds b.parent).length - 1]? ≠
            some (b.arena.childIds b.parent)[j] := by
          rw [List.getElem?_eq_getElem (by omega), Ne, Option.some_inj, hnodup.getElem_inj_iff]
          omega
        rw [if_neg hne, hfit.next j hj, List.getElem?_append_left hj1]
    · rw [List.getElem_append_right (Nat.le_refl _)]
      simp only [Nat.sub_self, List.getElem_singleton]
      rw [nextSibling?_append hp hl, if_pos rfl, hd.2.2.2, List.getElem?_eq_none (by simp)]
  · intro j hj
    rw [List.length_append, List.length_singleton] at hj
    rcases Nat.lt_succ_iff_lt_or_eq.mp hj with hj | rfl
    · rw [List.getElem_append_left hj]
      have hx := hlt _ (List.getElem_mem hj)
      rw [prevSibling?_append hp hl, if_neg (Nat.ne_of_lt hx), hfit.prev j hj]
      split_ifs
      · rfl
      · rw [List.getElem?_append_left (by omega)]
    · rw [List.getElem_append_right (Nat.le_refl _)]
      simp only [Nat.sub_self, List.getElem_singleton]
      rw [prevSibling?_append hp hl, if_pos rfl, hd.2.2.1, Option.or_none, hfit.last,
        List.getLast?_eq_getElem?]
      split_ifs with h0
      · simp [h0]
      · rw [List.getElem?_append_left (by omega)]

/-- Every other child list keeps its links. -/
theorem linksFit_append_other {q : Nat} (hq : q ≠ b.parent) : (b.append n).arena.LinksFit q := by
  have hp := h.parent_lt_size
  have hl := h.lastChild_lt
  have hfit := h.arena.links q
  have hcs := h.childIds_append hn q
  rw [if_neg hq] at hcs
  by_cases hqN : q = b.nodes.size
  · -- the new node has no children yet
    subst hqN
    rw [h.arena.childIds_eq_nil (q := b.nodes.size) (Nat.le_refl _)] at hcs
    refine LinksFit.of_childIds_eq hcs ?_ ?_ (fun j hj => by simp at hj) (fun j hj => by simp at hj)
    · rw [firstChild?_append hp hl, if_pos rfl, hd.1]
      rfl
    · rw [lastChild?_append hp hl, if_pos rfl, hd.2.1]
      rfl
  · have hlt : ∀ j (hj : j < (b.arena.childIds q).length), (b.arena.childIds q)[j] ≠ b.nodes.size :=
      fun j hj => Nat.ne_of_lt (lt_size_of_parent? (mem_childIds.mp (List.getElem_mem hj)))
    refine LinksFit.of_childIds_eq hcs ?_ ?_ ?_ ?_
    · rw [firstChild?_append hp hl, if_neg hqN, if_neg (fun h' => hq h'.1), hfit.first]
    · rw [lastChild?_append hp hl, if_neg hqN, if_neg hq, hfit.last]
    · intro j hj
      -- a child of `q` is not the last child of the parent
      have hnot : b.arena.lastChild? b.parent ≠ some (b.arena.childIds q)[j] := by
        intro hlast
        rw [(h.arena.links b.parent).last] at hlast
        have h1 := mem_childIds.mp (List.mem_of_getLast? hlast)
        have h2 := mem_childIds.mp (List.getElem_mem hj)
        rw [h1] at h2
        exact hq (Option.some_inj.mp h2).symm
      rw [nextSibling?_append hp hl, if_neg (hlt j hj), if_neg hnot, hfit.next j hj]
    · intro j hj
      rw [prevSibling?_append hp hl, if_neg (hlt j hj), hfit.prev j hj]

/-- Appending a detached node one level below the innermost open element keeps the arena a
tree under construction. -/
theorem append_arena (hk : n.kind ≠ .document) (hdep : n.depth = b.childDepth) :
    Arena (b.append n).arena where
  document_node := by
    obtain ⟨n0, h0, hk0, hp0, hd0⟩ := h.arena.document_node
    obtain ⟨_, _, _, he⟩ := node?_append_of_node? h.parent_lt_size h.lastChild_lt h0 (n := n)
    exact ⟨_, he, hk0, hp0, hd0⟩
  linked i n' hi hpos := by
    have hp := h.parent_lt_size
    have hl := h.lastChild_lt
    obtain ⟨pn, hpn, hpk⟩ := h.parent_node
    obtain ⟨_, _, _, hpe⟩ := node?_append_of_node? hp hl hpn (n := n)
    by_cases hiN : i = b.nodes.size
    · -- the new node hangs below the innermost open element
      subst hiN
      rw [node?_append n hp hl, if_pos rfl] at hi
      cases hi
      exact ⟨b.parent, _, hn, hp, hpe, hpk, hk, by rw [hdep, h.childDepth_eq hpn]⟩
    · obtain ⟨n0, _, _, _, hn0, rfl⟩ := exists_node?_of_append hp hl hiN hi
      obtain ⟨q, qn, hq, hqi, hqn, hqk, hk0, hd0⟩ := h.arena.linked i n0 hn0 hpos
      obtain ⟨_, _, _, hqe⟩ := node?_append_of_node? hp hl hqn (n := n)
      exact ⟨q, _, hq, hqi, hqe, hqk, hk0, hd0⟩
  links q := by
    by_cases hq : q = b.parent
    · subst hq
      exact h.linksFit_append_parent hn hd
    · exact h.linksFit_append_other hn hd hq
  no_siblings := by
    have hp := h.parent_lt_size
    have hl := h.lastChild_lt
    have h0 : (0 : Nat) ≠ b.nodes.size := by omega
    have hl0 : b.arena.lastChild? b.parent ≠ some 0 := fun h' => by
      have := (hl 0 h').1
      omega
    refine ⟨?_, ?_⟩
    · rw [nextSibling?_append hp hl, if_neg h0, if_neg hl0, h.arena.no_siblings.1]
    · rw [prevSibling?_append hp hl, if_neg h0, h.arena.no_siblings.2]
  contiguous x y z hxy hyz ha := by
    have hp := h.parent_lt_size
    rw [h.ancestor_append_iff hn] at ha ⊢
    rcases ha with ⟨hz, ha⟩ | ⟨rfl, ha⟩
    · exact .inl ⟨by omega, h.arena.contiguous x y z hxy hyz ha⟩
    · rcases Nat.lt_or_ge y b.nodes.size with hy | hy
      · refine .inl ⟨hy, ?_⟩
        rcases ha with rfl | ha
        · exact h.frontier y hxy hy
        · rcases Nat.lt_trichotomy y b.parent with hyp | rfl | hyp
          · exact h.arena.contiguous x y b.parent hxy (Nat.le_of_lt hyp) ha
          · exact ha
          · exact ha.trans (h.frontier y hyp hy)
      · exact .inr ⟨by omega, ha⟩

omit hd in
theorem append_frontier : ∀ m, b.parent < m → m < b.nodes.size + 1 →
    Ancestor (b.append n).arena b.parent m := by
  intro m hpm hm
  rw [h.ancestor_append_iff hn]
  rcases Nat.lt_or_ge m b.nodes.size with hlt | hge
  · exact .inl ⟨hlt, h.frontier m hpm hlt⟩
  · exact .inr ⟨by omega, .inl rfl⟩

omit hd in
theorem find?_root_append :
    ((b.append n).arena.childIds 0).find? (fun i => (b.append n).arena.kind? i = some .element) =
      ((b.arena.childIds 0).find? fun i => b.arena.kind? i = some .element).or
        (if b.parent = 0 ∧ n.kind = .element then some b.nodes.size else none) := by
  have hkind := kind?_append h.parent_lt_size h.lastChild_lt (n := n)
  have hold : ∀ l : List Nat, (∀ i ∈ l, i < b.nodes.size) →
      l.find? (fun i => (b.append n).arena.kind? i = some .element) =
        l.find? fun i => b.arena.kind? i = some .element := by
    intro l hl
    refine List.find?_congr fun i hi => ?_
    rw [hkind, if_neg (Nat.ne_of_lt (hl i hi))]
  have hmem : ∀ i ∈ b.arena.childIds 0, i < b.nodes.size :=
    fun i hi => lt_size_of_parent? (mem_childIds.mp hi)
  rw [h.childIds_append hn]
  by_cases h0 : b.parent = 0
  · rw [if_pos h0.symm, List.find?_append, hold _ hmem]
    by_cases he : n.kind = .element <;> simp [hkind, he, h0]
  · rw [if_neg (Ne.symm h0), hold _ hmem]
    simp [h0]

end Inv

theorem Inv.congr (h : Inv b) (hn : b'.nodes = b.nodes) (hs : b'.stack = b.stack)
    (hr : b'.root = b.root) : Inv b' := by
  have ha : b'.arena = b.arena := by unfold Builder.arena; rw [hn]
  have hp : b'.parent = b.parent := by simp [parent, hs]
  exact ⟨ha ▸ h.arena, ha ▸ hs ▸ h.path, by rw [ha, hp, hn]; exact h.frontier,
    by rw [ha, hr]; exact h.root⟩

theorem childIds_start (strict : Bool) (p : Nat) : (start strict).arena.childIds p = [] := by
  simp [childIds, Builder.start, Builder.arena, parent?, node?, Node.documentNode, Node.unlinked,
    Document.size]

theorem Inv.start (strict : Bool) : Inv (start strict) where
  arena := {
    document_node := ⟨Node.documentNode, rfl, rfl, rfl, rfl⟩
    linked := fun i n hi hpos => by
      have := lt_size_of_node? hi
      simp [Builder.start] at this
      omega
    links := fun p => by
      refine LinksFit.of_childIds_eq (childIds_start strict p) ?_ ?_ (fun j hj => by simp at hj)
        (fun j hj => by simp at hj)
      · cases p <;> simp [firstChild?, Builder.start, Builder.arena, node?, Node.documentNode,
          Node.unlinked]
      · cases p <;> simp [lastChild?, Builder.start, Builder.arena, node?, Node.documentNode,
          Node.unlinked]
    no_siblings := ⟨rfl, rfl⟩
    contiguous := fun x y z hxy hyz ha => by
      obtain ⟨n, hn⟩ := ha.node?
      have := lt_size_of_node? hn
      simp [Builder.start] at this
      omega }
  path := trivial
  frontier := fun m hm hs => by simp [Builder.start, parent] at hs hm; omega
  root := by rw [childIds_start]; rfl

theorem Inv.append (h : Inv b) {n : Node} (hn : n.parent = some b.parent) (hd : n.Detached)
    (hk : n.kind ≠ .document) (he : n.kind ≠ .element) (hdep : n.depth = b.childDepth) :
    Inv (b.append n) where
  arena := h.append_arena hn hd hk hdep
  path := open_path_append h.parent_lt_size h.lastChild_lt h.path
  frontier m hm hs := h.append_frontier hn m hm (by simpa using hs)
  root := by
    rw [append_root, h.root, h.find?_root_append hn]
    simp [he]

theorem Inv.addLeaf (h : Inv b) {kind : NodeKind} (hk : kind ≠ .document)
    (he : kind ≠ .element) (name value : String) (offset : Nat) :
    Inv (b.addLeaf kind name value offset) := by
  unfold Builder.addLeaf
  exact h.append rfl Node.unlinked_detached hk he rfl
theorem Inv.push (h : Inv b) {m : Nat} (hs : b.nodes.size = m + 1)
    (hk : b.arena.kind? m = some .element) (hp : b.arena.parent? m = some b.parent) :
    Inv { b with stack := m :: b.stack } where
  arena := h.arena
  path := ⟨hk, hp, h.path⟩
  frontier := fun k hmk hk => by
    change m < k at hmk
    change k < b.nodes.size at hk
    omega
  root := h.root

@[simp] theorem popElement_nodes : b.popElement.nodes = b.nodes := by
  unfold Builder.popElement
  split <;> rfl

@[simp] theorem popElement_root : b.popElement.root = b.root := by
  unfold Builder.popElement
  split <;> rfl

theorem arena_eq_of_nodes (h : b'.nodes = b.nodes) : b'.arena = b.arena := by
  unfold Builder.arena
  rw [h]

theorem Inv.popElement (h : Inv b) : Inv b.popElement := by
  have ha : b.popElement.arena = b.arena := arena_eq_of_nodes popElement_nodes
  cases hs : b.stack with
  | nil => exact h.congr popElement_nodes (by simp [Builder.popElement, hs]) popElement_root
  | cons s rest =>
    have hpath := h.path
    rw [hs] at hpath
    obtain ⟨-, hps, hrest⟩ := hpath
    have hsp : b.parent = s := by simp [parent, hs]
    have hst : b.popElement.stack = rest := by simp [Builder.popElement, hs]
    refine ⟨ha ▸ h.arena, by rw [ha, hst]; exact hrest, ?_, by rw [ha, popElement_root]; exact h.root⟩
    rw [ha, popElement_nodes]
    simp only [parent, hst]
    intro m hqm hm
    have hanc : Ancestor b.arena (rest.head?.getD 0) s := .parent hps
    rcases Nat.lt_trichotomy m s with hms | rfl | hms
    · exact h.arena.contiguous _ m s hqm (Nat.le_of_lt hms) hanc
    · exact hanc
    · exact hanc.trans (hsp ▸ h.frontier m (hsp ▸ hms) hm)

theorem Inv.popMany : ∀ (l : List Nat) {c : Builder}, Inv c →
    Inv (l.foldl (fun b _ => b.popElement) c)
  | [], _, h => h
  | _ :: l, _, h => Inv.popMany l h.popElement

theorem popMany_nodes : ∀ (l : List Nat) {c : Builder},
    (l.foldl (fun b _ => b.popElement) c).nodes = c.nodes
  | [], _ => rfl
  | _ :: l, c => (popMany_nodes l).trans (popElement_nodes (b := c))

/-! ## Attributes -/

def attributeLists (b : Builder) : List (List Attr) :=
  b.arena.elements.map b.arena.attributes

def Records (b : Builder) (tags : List Markup.StartTag) : Prop :=
  List.Forall₂ (fun as tag => List.Forall₂ Attr.Stores as tag.attributes) b.attributeLists tags

theorem attributeLists_eq_of_nodes (h : b'.nodes = b.nodes) :
    b'.attributeLists = b.attributeLists := by
  simp [attributeLists, arena_eq_of_nodes h]

theorem elements_append {n : Node} (hp : b.parent < b.nodes.size)
    (hl : ∀ l, b.arena.lastChild? b.parent = some l → b.parent < l ∧ l < b.nodes.size) :
    (b.append n).arena.elements =
      b.arena.elements ++ if n.kind = .element then [b.nodes.size] else [] := by
  have hold : ((List.range b.nodes.size).filter fun i => (b.append n).arena.kind? i = some .element)
      = b.arena.elements := by
    refine List.filter_congr fun i hi => ?_
    rw [kind?_append hp hl, if_neg (Nat.ne_of_lt (List.mem_range.mp hi))]
  rw [elements, arena_size, append_nodes_size, List.range_succ, List.filter_append, hold]
  by_cases he : n.kind = .element <;> simp [kind?_append hp hl, he]

theorem attributeLists_append {n : Node} (hp : b.parent < b.nodes.size)
    (hl : ∀ l, b.arena.lastChild? b.parent = some l → b.parent < l ∧ l < b.nodes.size) :
    (b.append n).attributeLists =
      b.attributeLists ++ if n.kind = .element then [n.attributes.toList] else [] := by
  have hmap : b.arena.elements.map (b.append n).arena.attributes = b.attributeLists := by
    refine List.map_congr_left fun i hi => attributes_append hp hl ?_
    exact List.mem_range.mp (List.mem_filter.mp hi).1
  rw [attributeLists, elements_append hp hl, List.map_append, hmap]
  by_cases he : n.kind = .element
  · simp [he, Document.attributes, node?_append n hp hl]
  · simp [he]

theorem storeAttributes_stores {scopes : Scopes} {element : String} {owner offset : Nat} :
    ∀ {attrs : List Markup.Attribute} {ids : List (String × Nat)} {stored : List Attr}
      {ids' : List (String × Nat)},
      b.storeAttributes scopes element owner offset attrs ids = .ok (stored, ids') →
      List.Forall₂ Attr.Stores stored attrs
  | [], _, _, _, h => by
    simp only [storeAttributes, Except.ok.injEq, Prod.mk.injEq] at h
    rw [← h.1]
    exact .nil
  | a :: rest, ids, stored, ids', h => by
    unfold storeAttributes at h
    dsimp only at h
    split at h
    · cases h
    · split at h
      · cases h
      · rename_i attrs ids'' hrest
        simp only [Except.ok.injEq, Prod.mk.injEq] at h
        rw [← h.1]
        exact .cons ⟨rfl, rfl, rfl, rfl, rfl⟩ (storeAttributes_stores hrest)

/-! ## Events -/

/-- An element opens only when its prefix and its attributes' prefixes resolve in the scopes
that add its declarations: it is appended with what they resolve to, and those scopes stay open
with it unless its tag was empty. -/
theorem openElement_eq_ok_elim {tag : Markup.StartTag} {offset : Nat} {empty : Bool}
    (h : b.openElement tag offset empty = .ok b') :
    ∃ ns attrs ids,
      b.resolve (declareAll b.scopes tag.attributes)
        ((Option.map text (Markup.splitName tag.name).1).getD "") offset = .ok ns ∧
      b.storeAttributes (declareAll b.scopes tag.attributes) (text tag.name) b.nodes.size offset
        tag.attributes b.ids = .ok (attrs, ids) ∧
      b' = { b.append (Node.unlinked .element (some b.parent) (text tag.name)
          (text (Markup.splitName tag.name).2) ((Option.map text (Markup.splitName tag.name).1).getD "")
          ns "" attrs.toArray b.childDepth (.ofNat offset)) with
        ids := ids
        root := if b.parent = 0 && b.root.isNone then some b.nodes.size else b.root
        scopes := if empty then (declareAll b.scopes tag.attributes).pop
          else declareAll b.scopes tag.attributes
        stack := if empty then b.stack else b.nodes.size :: b.stack } := by
  unfold openElement at h
  dsimp only at h
  split at h
  · cases h
  · cases hres : b.resolve (declareAll b.scopes tag.attributes)
        ((Option.map text (Markup.splitName tag.name).fst).getD "") offset with
    | error e =>
      rw [hres] at h
      cases h
    | ok ns =>
      rw [hres] at h
      cases hst : b.storeAttributes (declareAll b.scopes tag.attributes) (text tag.name)
          b.nodes.size offset tag.attributes b.ids with
      | error e =>
        rw [hst] at h
        cases h
      | ok r =>
        obtain ⟨attrs, ids⟩ := r
        rw [hst] at h
        refine ⟨ns, attrs, ids, rfl, rfl, ?_⟩
        cases empty <;> (simp only [Except.ok.injEq] at h; subst h; rfl)

theorem openElement_eq_ok {tag : Markup.StartTag} {offset : Nat} {empty : Bool}
    (h : b.openElement tag offset empty = .ok b') :
    ∃ node : Node, node.kind = .element ∧ node.parent = some b.parent ∧ node.Detached ∧
      node.depth = b.childDepth ∧ List.Forall₂ Attr.Stores node.attributes.toList tag.attributes ∧
      b'.nodes = (b.append node).nodes ∧
      b'.root = (if b.parent = 0 && b.root.isNone then some b.nodes.size else b.root) ∧
      b'.stack = if empty then b.stack else b.nodes.size :: b.stack := by
  obtain ⟨ns, attrs, ids, -, hst, rfl⟩ := openElement_eq_ok_elim h
  exact ⟨_, rfl, rfl, Node.unlinked_detached, rfl, by simpa [Node.unlinked] using storeAttributes_stores hst,
    rfl, rfl, rfl⟩

theorem closeElement_eq_ok {name : List UInt8} {offset : Nat}
    (h : b.closeElement name offset = .ok b') :
    b' = b ∨ b' = b.popElement ∨ ∃ k, b' = (List.range (k + 1)).foldl (fun b _ => b.popElement) b := by
  unfold closeElement at h
  dsimp only at h
  split at h
  · split at h
    · exact .inr (.inl (Except.ok.inj h).symm)
    · split at h
      · cases h
      · split at h
        · exact .inr (.inr ⟨_, (Except.ok.inj h).symm⟩)
        · exact .inl (Except.ok.inj h).symm
  · split at h
    · cases h
    · exact .inl (Except.ok.inj h).symm

theorem Inv.openElement (h : Inv b) {tag : Markup.StartTag} {offset : Nat} {empty : Bool}
    (ho : b.openElement tag offset empty = .ok b') : Inv b' := by
  obtain ⟨node, hk, hn, hc, hd, -, hnodes, hroot, hstack⟩ := openElement_eq_ok ho
  have hp := h.parent_lt_size
  have hl := h.lastChild_lt
  have hroot' : b'.root = ((b.append node).arena.childIds 0).find?
      (fun i => (b.append node).arena.kind? i = some .element) := by
    rw [hroot, h.find?_root_append hn, ← h.root]
    cases hr : b.root <;> by_cases h0 : b.parent = 0 <;> simp [h0, hk]
  have h1 : Inv { b.append node with root := b'.root } :=
    ⟨h.append_arena hn hc (by rw [hk]; decide) hd, open_path_append hp hl h.path,
      fun m hm hs => h.append_frontier hn m hm (by simpa using hs), hroot'⟩
  cases empty
  · have h2 := h1.push (m := b.nodes.size) (by simp)
      (by rw [show ({ b.append node with root := b'.root } : Builder).arena = (b.append node).arena
            from rfl, kind?_append hp hl, if_pos rfl, hk])
      (by rw [show ({ b.append node with root := b'.root } : Builder).arena = (b.append node).arena
            from rfl, parent?_append hp hl, if_pos rfl, hn]; rfl)
    exact h2.congr hnodes (by simpa using hstack) rfl
  · exact h1.congr hnodes (by simpa using hstack) rfl

theorem Inv.closeElement (h : Inv b) {name : List UInt8} {offset : Nat}
    (hc : b.closeElement name offset = .ok b') : Inv b' ∧ b'.nodes = b.nodes := by
  rcases closeElement_eq_ok hc with rfl | rfl | ⟨k, rfl⟩
  · exact ⟨h, rfl⟩
  · exact ⟨h.popElement, popElement_nodes⟩
  · exact ⟨h.popMany _, popMany_nodes _⟩

/-- What one event can do: open an element for its start tag, close elements for an end tag,
add a leaf that is no element, or leave the nodes, the open elements, the root and the scopes
alone. -/
theorem step_cases {offset : Nat} {ev : Markup.Event} (hs : b.step offset ev = .ok b') :
    (∃ tag empty, ev.tag? = some tag ∧ b.openElement tag offset empty = .ok b') ∨
    ev.tag? = none ∧ ((∃ name, b.closeElement name offset = .ok b') ∨
      (∃ kind name value, kind ≠ .document ∧ kind ≠ .element ∧
        b' = b.addLeaf kind name value offset) ∨
      (b'.nodes = b.nodes ∧ b'.stack = b.stack ∧ b'.root = b.root ∧ b'.scopes = b.scopes)) := by
  cases ev with
  | start tag => exact .inl ⟨tag, false, rfl, hs⟩
  | empty tag => exact .inl ⟨tag, true, rfl, hs⟩
  | finish name => exact .inr ⟨rfl, .inl ⟨name, hs⟩⟩
  | text content | cdata content =>
    simp only [step] at hs
    split at hs
    · split at hs
      · cases hs
      · cases hs
        exact .inr ⟨rfl, .inr (.inr ⟨rfl, rfl, rfl, rfl⟩)⟩
    · cases hs
      exact .inr ⟨rfl, .inr (.inl ⟨_, _, _, by decide, by decide, rfl⟩)⟩
  | comment content | instruction target data =>
    cases hs
    exact .inr ⟨rfl, .inr (.inl ⟨_, _, _, by decide, by decide, rfl⟩)⟩
  | doctype content =>
    simp only [step] at hs
    split at hs
    · cases hs
    · cases hs
      exact .inr ⟨rfl, .inr (.inr ⟨rfl, rfl, rfl, rfl⟩)⟩
  | declaration | endDocument =>
    cases hs
    exact .inr ⟨rfl, .inr (.inr ⟨rfl, rfl, rfl, rfl⟩)⟩

theorem Inv.step (h : Inv b) {offset : Nat} {ev : Markup.Event}
    (hs : b.step offset ev = .ok b') : Inv b' := by
  rcases step_cases hs with ⟨tag, empty, -, ho⟩ | ⟨-, ⟨name, hc⟩ | ⟨kind, name, value, hk, he, rfl⟩ |
    ⟨hn, hst, hr, -⟩⟩
  · exact h.openElement ho
  · exact (h.closeElement hc).1
  · exact h.addLeaf hk he name value offset
  · exact h.congr hn hst hr

theorem Inv.step_keeps (h : Inv b) {offset : Nat} {ev : Markup.Event}
    (hs : b.step offset ev = .ok b') :
    b.nodes.size ≤ b'.nodes.size ∧ ∀ x < b.nodes.size, b'.arena.parent? x = b.arena.parent? x := by
  have hpar := fun (n : Node) => parent?_append h.parent_lt_size h.lastChild_lt (n := n)
  rcases step_cases hs with ⟨tag, empty, -, ho⟩ | ⟨-, ⟨name, hc⟩ |
    ⟨kind, name, value, -, -, rfl⟩ | ⟨hn, -, -, -⟩⟩
  · obtain ⟨node, -, -, -, -, -, hnodes, -⟩ := openElement_eq_ok ho
    rw [arena_eq_of_nodes hnodes, hnodes]
    exact ⟨by simp, fun x hx => by rw [hpar, if_neg (Nat.ne_of_lt hx)]⟩
  · have hnodes := (h.closeElement hc).2
    rw [arena_eq_of_nodes hnodes, hnodes]
    exact ⟨le_rfl, fun _ _ => rfl⟩
  · unfold Builder.addLeaf
    exact ⟨by simp, fun x hx => by rw [hpar, if_neg (Nat.ne_of_lt hx)]⟩
  · rw [arena_eq_of_nodes hn, hn]
    exact ⟨le_rfl, fun _ _ => rfl⟩

theorem Records.step {tags : List Markup.StartTag} (hr : Records b tags) (h : Inv b)
    {offset : Nat} {ev : Markup.Event} (hs : b.step offset ev = .ok b') :
    Records b' (tags ++ ev.tag?.toList) := by
  unfold Records at hr ⊢
  rcases step_cases hs with ⟨tag, empty, htag, ho⟩ | ⟨htag, ⟨name, hc⟩ |
    ⟨kind, name, value, hk, he, rfl⟩ | ⟨hn, -, -, -⟩⟩
  · obtain ⟨node, hk, -, -, -, hstore, hnodes, -⟩ := openElement_eq_ok ho
    rw [attributeLists_eq_of_nodes hnodes, attributeLists_append h.parent_lt_size h.lastChild_lt,
      if_pos hk,
      htag]
    exact List.rel_append hr (.cons hstore .nil)
  · rw [attributeLists_eq_of_nodes (h.closeElement hc).2, htag, Option.toList_none,
      List.append_nil]
    exact hr
  · unfold addLeaf
    rw [attributeLists_append h.parent_lt_size h.lastChild_lt, htag]
    simpa [Node.unlinked, he] using hr
  · rw [attributeLists_eq_of_nodes hn, htag]
    simpa using hr

theorem Markup.startTags_cons (offset : Nat) (ev : Markup.Event) (rest : List (Nat × Markup.Event)) :
    Markup.startTags ((offset, ev) :: rest) = ev.tag?.toList ++ Markup.startTags rest := by
  cases h : ev.tag? <;> simp [Markup.startTags, h]

theorem Inv.run : ∀ {evs : List (Nat × Markup.Event)} {c c' : Builder}
    {tags : List Markup.StartTag}, Inv c → Records c tags → c.run evs = .ok c' →
      Inv c' ∧ Records c' (tags ++ Markup.startTags evs)
  | [], c, c', tags, h, hr, hrun => by
    cases hrun
    simpa [Markup.startTags] using ⟨h, hr⟩
  | (offset, ev) :: rest, c, c', tags, h, hr, hrun => by
    simp only [Builder.run] at hrun
    split at hrun
    · cases hrun
    · rename_i c1 hs
      have ih := Inv.run (h.step hs) (hr.step h hs) hrun
      rwa [Markup.startTags_cons, ← List.append_assoc]

theorem Records.start (strict : Bool) : Records (start strict) [] := by
  simp [Records, attributeLists, Document.elements, Builder.start, Builder.arena, Document.size,
    kind?, node?, Node.documentNode, Node.unlinked]

theorem parse_finish {input : List UInt8} {strict : Bool} {d : Document}
    (h : Document.parse input strict = .ok d) :
    ∃ b, (start strict).run (Markup.events strict input).1 = .ok b ∧ b.finish input = .ok d := by
  unfold Document.parse at h
  dsimp only at h
  split at h
  · cases h
  · cases hrun : (start strict).run (Markup.events strict input).1 with
    | error e =>
      rw [hrun] at h
      cases h
    | ok b =>
      rw [hrun] at h
      refine ⟨b, rfl, ?_⟩
      dsimp only at h
      split at h
      · cases h
      · split at h
        · split at h
          · cases h
          · exact h
        · exact h

theorem parse_eq_ok {input : List UInt8} {strict : Bool} {d : Document}
    (h : Document.parse input strict = .ok d) :
    ∃ b, (start strict).run (Markup.events strict input).1 = .ok b ∧ d.nodes = b.nodes ∧
      d.root = b.root := by
  obtain ⟨b, hrun, hfin⟩ := parse_finish h
  refine ⟨b, hrun, ?_⟩
  unfold finish at hfin
  split at hfin
  · cases hfin
  · cases hfin
    simp_all

end Builder

theorem Document.parse_arena {input : List UInt8} {strict : Bool} {d : Document}
    (h : Document.parse input strict = .ok d) : d.Arena := by
  obtain ⟨b, hrun, hnodes, -⟩ := Builder.parse_eq_ok h
  exact ((Builder.Inv.start strict).run (Builder.Records.start strict) hrun).1.arena.congr hnodes

/-- Every document that a build yields, strictly or leniently, is an ordered tree numbered in
pre-order, with the shape `Document.IsTree` states, and its elements in id order carry the
attributes of the start tags of the input's events in order. -/
theorem Document.parse_isTree {input : List UInt8} {strict : Bool} {d : Document}
    (h : Document.parse input strict = .ok d) :
    d.IsTree ∧ List.Forall₂ (fun e tag => List.Forall₂ Attr.Stores (d.attributes e) tag.attributes)
      d.elements (Markup.startTags (Markup.events strict input).1) := by
  obtain ⟨b, hrun, hnodes, hroot⟩ := Builder.parse_eq_ok h
  obtain ⟨hinv, hrec⟩ := (Builder.Inv.start strict).run (Builder.Records.start strict) hrun
  have hn : d.nodes = b.arena.nodes := hnodes
  refine ⟨(hinv.arena.congr hn).isTree ?_, ?_⟩
  · rw [hroot, hinv.root, children_congr hn, kind?_congr hn, hinv.arena.children_eq]
  · unfold Builder.Records Builder.attributeLists at hrec
    rw [elements_congr hn, attributes_congr hn]
    exact List.forall₂_map_left_iff.mp hrec

/-- A small mixed-content document builds strictly, so it has the shape above. -/
theorem Document.parse_mixed_content_isTree :
    ∃ d, Document.parse "<a x='1'><b/>t</a>".toUTF8.toList true = .ok d ∧ d.IsTree ∧
      List.Forall₂ (fun e tag => List.Forall₂ Attr.Stores (d.attributes e) tag.attributes)
        d.elements (Markup.startTags (Markup.events true "<a x='1'><b/>t</a>".toUTF8.toList).1) := by
  have hok : (Document.parse "<a x='1'><b/>t</a>".toUTF8.toList true).isOk = true := by
    decide +kernel
  cases h : Document.parse "<a x='1'><b/>t</a>".toUTF8.toList true with
  | ok d => exact ⟨d, rfl, Document.parse_isTree h⟩
  | error e => rw [h] at hok; cases hok

end XmlPointer
