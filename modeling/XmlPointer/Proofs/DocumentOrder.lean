import Mathlib
import XmlPointer.Proofs.CompileCorrect

/-! # Node-sets in document order

Node ids are numbered in document order, so a node-set in document order without repeats is a
strictly increasing list of ids (`Value.InOrder`). Every instruction of the stack machine keeps
all values on the stack in order: the root and context node are single nodes, a location step,
a union and `id()` sort and drop repeats (`normalize`), a filter keeps a sublist of its input,
and every other instruction pushes a value that is no node-set. Programs start on the empty
stack and predicates and right operands run on empty stacks of their own, so every node-set an
evaluation produces, and every node-set it returns, is in document order. -/
namespace XmlPointer.Path

section Normalize

theorem mem_dedupSorted {a : Nat} {l : List Nat} : a ∈ dedupSorted l ↔ a ∈ l := by
  fun_induction dedupSorted l with
  | case1 => rfl
  | case2 y t ih => simp [ih]
  | case3 x y t hne ih => simp [ih]
  | case4 x => rfl

theorem dedupSorted_increasing {l : List Nat} (h : l.Pairwise (· ≤ ·)) :
    (dedupSorted l).Pairwise (· < ·) := by
  fun_induction dedupSorted l with
  | case1 => exact .nil
  | case2 y t ih => exact ih h.of_cons
  | case3 x y t hne ih =>
    refine .cons (fun z hz => ?_) (ih h.of_cons)
    -- every later id is at least `y`, which is above `x`
    have hxy : x < y := Nat.lt_of_le_of_ne (List.rel_of_pairwise_cons h List.mem_cons_self) hne
    rcases List.mem_cons.mp (mem_dedupSorted.mp hz) with rfl | hz
    · exact hxy
    · exact Nat.lt_of_lt_of_le hxy (List.rel_of_pairwise_cons h.of_cons hz)
  | case4 x => exact List.pairwise_singleton _ x

@[simp] theorem mem_normalize {a : Nat} {ids : List Nat} : a ∈ normalize ids ↔ a ∈ ids := by
  simp [normalize, mem_dedupSorted]

theorem normalize_increasing (ids : List Nat) : (normalize ids).Pairwise (· < ·) := by
  have hsorted : (ids.mergeSort (· ≤ ·)).Pairwise (· ≤ ·) := by
    have htrans : ∀ a b c : Nat,
        decide (a ≤ b) = true → decide (b ≤ c) = true → decide (a ≤ c) = true := by
      intro a b c hab hbc
      simp only [decide_eq_true_eq] at *
      omega
    simpa using List.pairwise_mergeSort htrans (fun a b => by simp; omega) ids
  exact dedupSorted_increasing hsorted

end Normalize

/-- A value is in document order: the ids of a node-set strictly increase; every other value
is. -/
def Value.InOrder : Value → Prop
  | .nodes ids => ids.Pairwise (· < ·)
  | _ => True

@[simp] theorem Value.inOrder_nodes {ids : List Nat} :
    (Value.nodes ids).InOrder ↔ ids.Pairwise (· < ·) := Iff.rfl

theorem Value.inOrder_normalize (ids : List Nat) : (Value.nodes (normalize ids)).InOrder :=
  normalize_increasing ids

def StackInOrder (st : List Value) : Prop := ∀ v ∈ st, v.InOrder

theorem StackInOrder.cons {v : Value} {st : List Value} (hv : v.InOrder) (hst : StackInOrder st) :
    StackInOrder (v :: st) := by
  intro w hw
  rcases List.mem_cons.mp hw with rfl | hw
  · exact hv
  · exact hst w hw

theorem StackInOrder.pop {st : List Value} (h : StackInOrder st) :
    (pop st).1.InOrder ∧ StackInOrder (pop st).2 := by
  cases st with
  | nil => exact ⟨List.Pairwise.nil, fun _ hv => nomatch hv⟩
  | cons v st => exact ⟨h v List.mem_cons_self, fun w hw => h w (List.mem_cons_of_mem v hw)⟩

theorem StackInOrder.drop {st : List Value} (h : StackInOrder st) (n : Nat) :
    StackInOrder (st.drop n) :=
  fun v hv => h v (List.mem_of_mem_drop hv)

theorem toNodes_eq_ok {v : Value} {ids : List Nat} (h : v.toNodes = .ok ids) : v = .nodes ids := by
  cases v <;> simp [Value.toNodes] at h
  rw [h]

section Filters

variable (c : Context)

theorem runFilter_sublist (p : List Op) (size : Nat) :
    ∀ {l : List (Nat × Nat)} {kept : List Nat}, runFilter c p size l = .ok kept →
      kept.Sublist (l.map Prod.fst)
  | [], kept, h => by
    rw [runFilter] at h
    cases h
    exact List.nil_sublist _
  | (id, position) :: rest, kept, h => by
    rw [runFilter] at h
    cases hv : run (c.at id position size) p [] with
    | error e => simp [hv] at h
    | ok v =>
      cases hk : runFilter c p size rest with
      | error e => simp [hv, hk] at h
      | ok k =>
        simp only [hv, hk, ok_bind] at h
        cases h
        have ih := runFilter_sublist p size hk
        split
        · exact ih.cons_cons id
        · exact ih.cons id

theorem runFilters_sublist :
    ∀ {preds : List (List Op)} {ids kept : List Nat}, runFilters c preds ids = .ok kept →
      kept.Sublist ids
  | [], ids, kept, h => by
    rw [runFilters] at h
    cases h
    exact List.Sublist.refl ids
  | p :: ps, ids, kept, h => by
    rw [runFilters] at h
    cases hk : runFilter c p ids.length (ids.zipIdx 1) with
    | error e => simp [hk] at h
    | ok k =>
      simp only [hk, ok_bind] at h
      have hk' := runFilter_sublist c p ids.length hk
      rw [List.zipIdx_map_fst] at hk'
      exact (runFilters_sublist h).trans hk'

end Filters

theorem elementsById_inOrder (d : Document) (v : Value) :
    (Value.nodes (elementsById d v)).InOrder :=
  Value.inOrder_normalize _

theorem CoreFunction.apply_inOrder {c : Context} {f : CoreFunction} {args : List Value} {v : Value}
    (h : f.apply c args = .ok v) : v.InOrder := by
  cases f <;> simp only [CoreFunction.apply] at h
  case id =>
    cases h
    exact elementsById_inOrder _ _
  case localName | namespaceUri | name =>
    cases hn : nameSubject c args <;> simp [hn, bind, Except.bind, pure, Except.pure] at h
    subst h
    trivial
  case count | sum | number => split at h <;> cases h <;> trivial
  all_goals
    cases h
    trivial

theorem callFunction_inOrder {c : Context} {name : String} {args : List Value} {v : Value}
    (h : callFunction c name args = .ok v) : v.InOrder := by
  unfold callFunction at h
  cases hf : CoreFunction.ofName? name with
  | none => simp [hf] at h
  | some f =>
    cases ha : checkArity name f.arity args.length with
    | error e => simp [hf, ha] at h
    | ok u =>
      simp only [hf, ha, ok_bind] at h
      exact CoreFunction.apply_inOrder h

theorem bind_eq_ok {ε α β : Type} {x : Except ε α} {f : α → Except ε β} {b : β} :
    x >>= f = .ok b ↔ ∃ a, x = .ok a ∧ f a = .ok b := by
  cases x <;> simp

section Machine

variable {c : Context}

/-- One instruction keeps every value on the stack in document order: what it pushes is a
single node, a sorted node-set, a sublist of the node-set it popped, or no node-set. -/
theorem exec_inOrder {op : Op} {st st' : List Value} (hst : StackInOrder st)
    (h : exec c op st = .ok st') : StackInOrder st' := by
  obtain ⟨htop, hbelow⟩ := hst.pop
  cases op with
  | root =>
    simp only [exec, Except.ok.injEq] at h
    exact h ▸ hst.cons (List.pairwise_singleton _ 0)
  | context =>
    simp only [exec, Except.ok.injEq] at h
    exact h ▸ hst.cons (List.pairwise_singleton _ c.node)
  | step axis test preds =>
    simp only [exec] at h
    obtain ⟨input, -, h⟩ := bind_eq_ok.mp h
    split at h
    · split at h
      · obtain ⟨values, -, h⟩ := bind_eq_ok.mp h
        cases h
        exact hbelow.cons trivial
      · cases h
    · obtain ⟨selected, -, h⟩ := bind_eq_ok.mp h
      cases h
      exact hbelow.cons (Value.inOrder_normalize _)
  | filter preds =>
    simp only [exec] at h
    obtain ⟨ids, hids, h⟩ := bind_eq_ok.mp h
    obtain ⟨kept, hkept, h⟩ := bind_eq_ok.mp h
    cases h
    -- the popped value is the node-set being filtered, so it is in order
    rw [toNodes_eq_ok hids] at htop
    exact hbelow.cons (htop.sublist (runFilters_sublist c hkept))
  | union =>
    simp only [exec] at h
    obtain ⟨rs, -, h⟩ := bind_eq_ok.mp h
    obtain ⟨ls, -, h⟩ := bind_eq_ok.mp h
    cases h
    exact hbelow.pop.2.cons (Value.inOrder_normalize _)
  | number v =>
    simp only [exec, Except.ok.injEq] at h
    exact h ▸ hst.cons trivial
  | literal s =>
    simp only [exec, Except.ok.injEq] at h
    exact h ▸ hst.cons trivial
  | call name argc =>
    simp only [exec] at h
    obtain ⟨v, hv, h⟩ := bind_eq_ok.mp h
    cases h
    exact (hst.drop argc).cons (callFunction_inOrder hv)
  | binary op =>
    simp only [exec, Except.ok.injEq] at h
    subst h
    refine hbelow.pop.2.cons ?_
    unfold applyBinary
    split <;> trivial
  | logical op rhs =>
    rw [exec] at h
    rcases hp : pop st with ⟨a, rest⟩
    rw [hp] at h hbelow
    dsimp only at h
    -- whether the left value decides, the pushed value is a boolean
    generalize (if (op == BinaryOp.andOp) = true then !a.toBoolean else a.toBoolean) = decided at h
    cases decided with
    | true =>
      cases h
      exact hbelow.cons trivial
    | false =>
      obtain ⟨b, -, h⟩ := bind_eq_ok.mp h
      cases h
      exact hbelow.cons trivial
  | negate =>
    simp only [exec, Except.ok.injEq] at h
    exact h ▸ hbelow.cons trivial
  | «variable» name => simp [exec] at h

theorem run_inOrder : ∀ {ops : List Op} {st : List Value} {v : Value}, StackInOrder st →
    run c ops st = .ok v → v.InOrder
  | [], st, v, hst, h => by
    simp only [run_nil, pure, Except.pure, Except.ok.injEq] at h
    exact h ▸ hst.pop.1
  | op :: ops, st, v, hst, h => by
    rw [run_cons] at h
    obtain ⟨st', hexec, hrun⟩ := bind_eq_ok.mp h
    exact run_inOrder (exec_inOrder hst hexec) hrun

end Machine

/-- Node-sets are in document order throughout an evaluation: every instruction keeps all values
on the stack strictly increasing, so the node-set of every compiled evaluation is; a filter keeps
a sublist of the node-set it is given, and a union is the sorted union of its operands. -/
theorem nodeSets_in_document_order :
    (∀ (c : Context) (op : Op) (st st' : List Value),
      StackInOrder st → exec c op st = .ok st' → StackInOrder st') ∧
    (∀ (d : Document) (node : Nat) (text : String) (ns : Bindings) (ids : List Nat),
      evaluateCompiled d node text ns = .ok (.nodes ids) → ids.Pairwise (· < ·)) ∧
    (∀ (c : Context) (preds : List (List Op)) (ids : List Nat) (st st' : List Value),
      exec c (.filter preds) (.nodes ids :: st) = .ok st' →
        ∃ kept, st' = .nodes kept :: st ∧ kept.Sublist ids) ∧
    (∀ (c : Context) (ls rs : List Nat) (st : List Value),
      ∃ u, exec c .union (.nodes rs :: .nodes ls :: st) = .ok (.nodes u :: st) ∧
        u.Pairwise (· < ·) ∧ ∀ x, x ∈ u ↔ x ∈ ls ∨ x ∈ rs) := by
  refine ⟨fun c op st st' hst h => exec_inOrder hst h, ?_, ?_, ?_⟩
  · intro d node text ns ids h
    simp only [evaluateCompiled] at h
    obtain ⟨e, -, h⟩ := bind_eq_ok.mp h
    exact run_inOrder (fun _ hv => absurd hv List.not_mem_nil) h
  · intro c preds ids st st' h
    simp only [exec, pop, Value.toNodes, ok_bind] at h
    obtain ⟨kept, hkept, h⟩ := bind_eq_ok.mp h
    cases h
    exact ⟨kept, rfl, runFilters_sublist c hkept⟩
  · intro c ls rs st
    exact ⟨normalize (ls ++ rs), by simp [exec, pop, Value.toNodes], normalize_increasing _,
      fun x => by simp⟩

end XmlPointer.Path
