import Mathlib
import XmlPointer.Path.Eval

/-! # Comparisons with their operands swapped

IEEE comparison of binary64 values is antisymmetric: comparing `b` with `a` gives the swapped
ordering of comparing `a` with `b`, and no ordering when either is NaN. So `==` on `Float` is
symmetric, and `a < b` is `b > a` by definition. Every comparison of XPath values then keeps its
result when the operands are swapped and the operator flipped (`<` with `>`, `<=` with `>=`, `=`
and `!=` with themselves): between two node-sets because some pair compares either way, between a
node-set and a scalar because the set is brought to the left with the flipped operator, and
between two scalars because the conversion they meet in is chosen by the pair of their types,
whichever comes first. An expression `x < y` therefore evaluates to the boolean of `y > x`. -/
namespace XmlPointer

namespace Binary64

open Float.Model

theorem compare_then_swap (e f : Int) (m n : Nat) :
    (compare f e).then (compare n m) = ((compare e f).then (compare m n)).swap := by
  rw [Ordering.swap_then, ← Std.OrientedOrd.eq_swap, ← Std.OrientedOrd.eq_swap]

theorem unpacked_compare_swap (a b : UnpackedFloat) :
    a.compare b = (b.compare a).map Ordering.swap := by
  rcases a with (s | _ | s | ⟨s, m, e, hm⟩) <;>
    rcases b with (t | _ | t | ⟨t, n, f, hn⟩) <;>
    (try cases s) <;> (try cases t) <;> simp [UnpackedFloat.compare]
  case finite.finite.negative.negative => exact (compare_then_swap e f m n).symm
  case finite.finite.positive.positive => exact compare_then_swap f e n m
  -- two infinities compare by their signs
  all_goals rfl

theorem float_beq_comm (a b : Float) : (a == b) = (b == a) := by
  show a.toModel.unpack.beq b.toModel.unpack = b.toModel.unpack.beq a.toModel.unpack
  simp only [UnpackedFloat.beq]
  rw [unpacked_compare_swap a.toModel.unpack]
  cases b.toModel.unpack.compare a.toModel.unpack with
  | none => rfl
  | some o => cases o <;> rfl

end Binary64

namespace Path

open Binary64

@[simp] theorem BinaryOp.flip_flip (op : BinaryOp) : op.flip.flip = op := by
  cases op <;> rfl

theorem compareStrings_flip (op : BinaryOp) (a b : String) :
    compareStrings op.flip b a = compareStrings op a b := by
  cases op <;> simp only [BinaryOp.flip, compareStrings, compareNumbers, Bool.beq_comm, bne]

theorem compareScalars_flip (d : Document) (op : BinaryOp) (a b : Value) :
    compareScalars d op.flip b a = compareScalars d op a b := by
  cases op
  case eq | notEq =>
    cases a <;> cases b <;>
      simp only [compareScalars, BinaryOp.flip, Bool.beq_comm, float_beq_comm]
  all_goals simp only [compareScalars, BinaryOp.flip, compareNumbers]

theorem any_any_comm {α β : Type} (l : List α) (r : List β) (p : α → β → Bool) :
    (l.any fun x => r.any fun y => p x y) = (r.any fun y => l.any fun x => p x y) := by
  apply Bool.eq_iff_iff.mpr
  simp only [List.any_eq_true]
  exact ⟨fun ⟨x, hx, y, hy, h⟩ => ⟨y, hy, x, hx, h⟩,
    fun ⟨y, hy, x, hx, h⟩ => ⟨x, hx, y, hy, h⟩⟩

theorem compareValues_flip (d : Document) (op : BinaryOp) (a b : Value) :
    compareValues d op.flip b a = compareValues d op a b := by
  unfold compareValues
  cases ha : a.atoms d <;> cases hb : b.atoms d
  case none.none => exact compareScalars_flip d op a b
  -- a set on the right is compared from the left with the flipped operator either way
  case none.some r => rfl
  case some.none l => rw [BinaryOp.flip_flip]
  case some.some l r =>
    simp only [compareStrings_flip]
    exact (any_any_comm l r _).symm

theorem applyBinary_comparison {d : Document} {op : BinaryOp}
    (hop : op ∈ [.eq, .notEq, .lt, .ltEq, .gt, .gtEq]) (a b : Value) :
    applyBinary d op a b = .boolean (compareValues d op a b) := by
  simp only [List.mem_cons, List.not_mem_nil, or_false] at hop
  rcases hop with rfl | rfl | rfl | rfl | rfl | rfl <;> rfl

theorem eval_comparison {c : Context} {op : BinaryOp}
    (hop : op ∈ [.eq, .notEq, .lt, .ltEq, .gt, .gtEq]) {x y : Expr} {a b : Value}
    (hx : eval c x = .ok a) (hy : eval c y = .ok b) :
    eval c (.binary op x y) = .ok (.boolean (compareValues c.doc op a b)) := by
  have hand : op ≠ .andOp := by rintro rfl; simp at hop
  have hor : op ≠ .orOp := by rintro rfl; simp at hop
  rw [eval, hx, hy]
  · exact congrArg Except.ok (applyBinary_comparison hop a b)
  all_goals assumption

theorem flip_comparison {op : BinaryOp} (hop : op ∈ [.eq, .notEq, .lt, .ltEq, .gt, .gtEq]) :
    op.flip ∈ [.eq, .notEq, .lt, .ltEq, .gt, .gtEq] := by
  simp only [List.mem_cons, List.not_mem_nil, or_false] at hop
  rcases hop with rfl | rfl | rfl | rfl | rfl | rfl <;> simp [BinaryOp.flip]

/-- Swapping the operands of a comparison and flipping its operator keeps its result, for all
values; so `x < y` and `y > x`, `x <= y` and `y >= x`, `x = y` and `y = x`, `x != y` and
`y != x` evaluate to the same boolean whenever `x` and `y` evaluate. -/
theorem compare_swap_flip :
    (∀ (d : Document) (op : BinaryOp) (a b : Value),
      compareValues d op a b = compareValues d op.flip b a) ∧
    (∀ (c : Context) (op : BinaryOp) (x y : Expr) (a b : Value),
      op ∈ [.eq, .notEq, .lt, .ltEq, .gt, .gtEq] → eval c x = .ok a → eval c y = .ok b →
        ∃ t, eval c (.binary op x y) = .ok (.boolean t) ∧
          eval c (.binary op.flip y x) = .ok (.boolean t)) := by
  refine ⟨fun d op a b => (compareValues_flip d op a b).symm, ?_⟩
  intro c op x y a b hop hx hy
  refine ⟨compareValues c.doc op a b, eval_comparison hop hx hy, ?_⟩
  rw [eval_comparison (flip_comparison hop) hy hx, compareValues_flip]

end Path

end XmlPointer
