import Mathlib
import XmlPointer.Proofs.Build
import XmlPointer.Document.Cursor

/-! # Subtree cursors stay in their subtree

A subtree cursor made on a node `r` of a built document and moved in any way never leaves the
subtree of `r`, and its depth is always the number of parent links from the node it is on up to
`r` (`SubtreeCursor.moves_stay_in_subtree`). The two moves that could leave the subtree, to the
next sibling and to the parent, are refused at `r` itself; below `r` they stay below it because
a node and its next sibling have the same parent. So a move to the parent is only made from a
positive depth, and a move that is refused changes nothing. -/
namespace XmlPointer

namespace Document

def linksUp (d : Document) (x r : Nat) : Option Nat :=
  (x :: d.ancestors x).idxOf? r

variable {d : Document}

theorem linksUp_self (x : Nat) : d.linksUp x x = some 0 := by
  simp [linksUp, List.idxOf?_cons]

theorem Arena.self_or_ancestor_of_linksUp (h : d.Arena) {x r k : Nat} (hk : d.linksUp x r = some k) :
    x = r ∨ d.Ancestor r x := by
  have hmem : r ∈ x :: d.ancestors x := by
    by_contra hr
    rw [linksUp, List.idxOf?_eq_none_iff.mpr hr] at hk
    cases hk
  rcases List.mem_cons.mp hmem with rfl | hr
  · exact .inl rfl
  · exact .inr (h.mem_ancestors.mp hr)

theorem Arena.le_of_linksUp (h : d.Arena) {x r k : Nat} (hk : d.linksUp x r = some k) : r ≤ x := by
  rcases h.self_or_ancestor_of_linksUp hk with rfl | ha
  · exact le_rfl
  · exact Nat.le_of_lt (h.ancestor_lt ha)

theorem Arena.linksUp_of_parent (h : d.Arena) {y x r : Nat} (hp : d.parent? y = some x) (hne : y ≠ r) :
    d.linksUp y r = (d.linksUp x r).map (· + 1) := by
  rw [linksUp, h.ancestors_of_parent? hp, List.idxOf?_cons, if_neg (by simpa using hne), linksUp]

end Document

namespace SubtreeCursor

open Document

def Confined (d : Document) (r : Nat) (c : SubtreeCursor) : Prop :=
  c.root = r ∧ d.linksUp c.current r = some c.depth

variable {d : Document} {r : Nat} {c c' : SubtreeCursor}

theorem confined_atRoot (d : Document) (r : Nat) : (atRoot r).Confined d r :=
  ⟨rfl, linksUp_self r⟩

theorem firstChild?_confined (h : d.Arena) (hc : c.Confined d r) (hm : c.firstChild? d = some c') :
    c'.Confined d r := by
  obtain ⟨hroot, hlinks⟩ := hc
  obtain ⟨y, hy, rfl⟩ := Option.map_eq_some_iff.mp hm
  have hfirst : (d.childIds c.current).head? = some y := by
    rw [← (h.links c.current).first]
    exact hy
  have hp := mem_childIds.mp (List.mem_of_mem_head? hfirst)
  have hlt := h.parent_lt hp
  have hle := h.le_of_linksUp hlinks
  refine ⟨hroot, ?_⟩
  show d.linksUp y r = some (c.depth + 1)
  rw [h.linksUp_of_parent hp (by omega), hlinks]
  rfl

theorem nextSibling?_confined (h : d.Arena) (hc : c.Confined d r) (hm : c.nextSibling? d = some c') :
    c'.Confined d r := by
  obtain ⟨rfl, hlinks⟩ := hc
  unfold nextSibling? at hm
  split at hm
  · cases hm
  · rename_i hat
    obtain ⟨y, hy, rfl⟩ := Option.map_eq_some_iff.mp hm
    -- the sibling hangs from the same parent, which is still in the subtree
    obtain ⟨p, hpx, hpy, -⟩ := h.parent?_of_nextSibling? hy
    have hup := h.linksUp_of_parent hpx (by simpa [isAtRoot] using hat)
    rw [hlinks] at hup
    obtain ⟨k, hk, -⟩ := Option.map_eq_some_iff.mp hup.symm
    have hle := h.le_of_linksUp hk
    have hlt := h.parent_lt hpy
    refine ⟨rfl, ?_⟩
    show d.linksUp y c.root = some c.depth
    rw [h.linksUp_of_parent hpy (by omega), hup]

theorem parent?_confined (h : d.Arena) (hc : c.Confined d r) (hm : c.parent? d = some c') :
    c'.Confined d r ∧ c'.depth + 1 = c.depth := by
  obtain ⟨rfl, hlinks⟩ := hc
  unfold parent? at hm
  split at hm
  · cases hm
  · rename_i hat
    obtain ⟨p, hp, rfl⟩ := Option.map_eq_some_iff.mp hm
    have hup := h.linksUp_of_parent hp (by simpa [isAtRoot] using hat)
    rw [hlinks] at hup
    obtain ⟨k, hk, hdepth⟩ := Option.map_eq_some_iff.mp hup.symm
    refine ⟨⟨rfl, ?_⟩, ?_⟩
    · show d.linksUp p c.root = some (c.depth - 1)
      rw [hk, ← hdepth]
      rfl
    · show c.depth - 1 + 1 = c.depth
      omega

theorem made_eq_self {o : Option SubtreeCursor} (hm : (move.made c o).1 = false) :
    (move.made c o).2 = c := by
  cases o with
  | none => rfl
  | some c' => cases hm

theorem made_confined {o : Option SubtreeCursor} (hc : c.Confined d r)
    (ho : ∀ c', o = some c' → c'.Confined d r) : (move.made c o).2.Confined d r := by
  cases o with
  | none => exact hc
  | some c' => exact ho c' rfl

theorem move_eq_self (d : Document) (c : SubtreeCursor) (m : Move) (hm : (c.move d m).1 = false) :
    (c.move d m).2 = c := by
  cases m with
  | firstChild | nextSibling | parent => exact made_eq_self hm
  | root => cases hm

theorem move_confined (h : d.Arena) (hc : c.Confined d r) (m : Move) : (c.move d m).2.Confined d r := by
  cases m with
  | firstChild => exact made_confined hc fun _ => firstChild?_confined h hc
  | nextSibling => exact made_confined hc fun _ => nextSibling?_confined h hc
  | parent => exact made_confined hc fun _ ho => (parent?_confined h hc ho).1
  | root => exact hc.1 ▸ confined_atRoot d c.root

theorem move_parent_depth (h : d.Arena) (hc : c.Confined d r) (hm : (c.move d .parent).1 = true) :
    (c.move d .parent).2.depth + 1 = c.depth := by
  cases ho : c.parent? d with
  | none => simp [move, move.made, ho] at hm
  | some c' => simpa [move, move.made, ho] using (parent?_confined h hc ho).2

theorem moves_confined (h : d.Arena) (ms : List Move) :
    ∀ {c : SubtreeCursor}, c.Confined d r → (c.moves d ms).Confined d r := by
  induction ms with
  | nil => intro c hc; exact hc
  | cons m ms ih => intro c hc; exact ih (move_confined h hc m)

/-- A cursor made on any node `r` of a built document and moved in any way is on `r` or one of
its descendants, and its depth is the number of parent links from there up to `r`. From there a
move that is not made changes nothing, and a move to the parent that is made lowers the depth by
one, so it never leaves a negative depth. -/
theorem moves_stay_in_subtree {input : List UInt8} {strict : Bool} {d : Document}
    (hd : Document.parse input strict = .ok d) (r : Nat) (ms : List Move) :
    let c := (atRoot r).moves d ms
    (c.current = r ∨ d.Ancestor r c.current) ∧ d.linksUp c.current r = some c.depth ∧
      (∀ m, (c.move d m).1 = false → (c.move d m).2 = c) ∧
      ((c.move d .parent).1 = true → (c.move d .parent).2.depth + 1 = c.depth) := by
  intro c
  have h := Document.parse_arena hd
  have hc : c.Confined d r := moves_confined h ms (confined_atRoot d r)
  exact ⟨h.self_or_ancestor_of_linksUp hc.2, hc.2, move_eq_self d c, move_parent_depth h hc⟩

/-- On `<r><a><x/><y/></a><b/></r>`, a cursor bound to `a` that tries to go down, across twice
and up twice stays in the subtree of `a`. -/
theorem moves_stay_below_a :
    ∃ d, Document.parse "<r><a><x/><y/></a><b/></r>".toUTF8.toList true = .ok d ∧
      let c := (atRoot 2).moves d [.firstChild, .nextSibling, .nextSibling, .parent, .parent]
      (c.current = 2 ∨ d.Ancestor 2 c.current) ∧ d.linksUp c.current 2 = some c.depth ∧
        (∀ m, (c.move d m).1 = false → (c.move d m).2 = c) ∧
        ((c.move d .parent).1 = true → (c.move d .parent).2.depth + 1 = c.depth) := by
  have hok : (Document.parse "<r><a><x/><y/></a><b/></r>".toUTF8.toList true).isOk = true := by
    decide +kernel
  cases h : Document.parse "<r><a><x/><y/></a><b/></r>".toUTF8.toList true with
  | ok d => exact ⟨d, rfl, moves_stay_in_subtree h 2 _⟩
  | error e => rw [h] at hok; cases hok

end SubtreeCursor

end XmlPointer
