import XmlPointer.Pointer.Eval

/-! # Which part of a pointer selects

A scheme-based pointer selects with the first part whose expression selects anything: a
non-empty node-set, or a non-empty list of attribute values. Each part's expression is evaluated
with the bindings in force at it, `xml` and then the `xmlns()` parts before it in order; a part
whose expression fails, or gives an empty or another kind of value, is passed over. `FirstSelection`
states this without the loop that computes it, and the pointer's result is characterised by it:
its items when there is a first selection, and otherwise the one error that names the pointer. -/
namespace XmlPointer

theorem Path.Bindings.lookup_declare (b : Path.Bindings) (p u q : String) :
    (b.declare p u).lookup q = if q = p then some u else b.lookup q := by
  by_cases h : q = p
  · subst h
    simp [Path.Bindings.lookup, Path.Bindings.declare]
  · have hne : (p == q) = false := by simpa using Ne.symm h
    simp [Path.Bindings.lookup, Path.Bindings.declare, h, hne]

/-- The prefix binding an `xmlns()` part makes; none for the other parts. -/
def Part.binding? : Part → Option (String × String)
  | .xmlns p u => some (p, u)
  | _ => none

def bindingsAt (ns : Path.Bindings) (parts : List Part) (i : Nat) : Path.Bindings :=
  ⟨ns.declared ++ (parts.take i).filterMap Part.binding?⟩

/-- The items an expression selects from a node: the nodes of a non-empty node-set, or the
values of a non-empty list of attribute values. -/
inductive Selects (d : Document) (node : Nat) (ns : Path.Bindings) (expr : String) :
    List Selected → Prop
  | nodes {ids : List Nat} : Path.evaluate d node expr ns = .ok (.nodes ids) → ids ≠ [] →
      Selects d node ns expr (ids.map .node)
  | attributes {vs : List String} : Path.evaluate d node expr ns = .ok (.strings vs) → vs ≠ [] →
      Selects d node ns expr (vs.map .attribute)

/-- Part `i` has an expression that selects `items` with the bindings in force there, and no
part before it has an expression that selects anything. -/
def FirstSelection (d : Document) (node : Nat) (ns : Path.Bindings) (parts : List Part) (i : Nat)
    (items : List Selected) : Prop :=
  (∃ part expr, parts[i]? = some part ∧ part.expression? = some expr ∧
      Selects d node (bindingsAt ns parts i) expr items) ∧
    ∀ j < i, ∀ part expr, parts[j]? = some part → part.expression? = some expr →
      ∀ items', ¬ Selects d node (bindingsAt ns parts j) expr items'

section Selection

variable {d : Document} {node : Nat}

theorem selectBy_eq_some_iff {ns : Path.Bindings} {expr : String} {items : List Selected} :
    selectBy d node ns expr = some items ↔ Selects d node ns expr items := by
  constructor
  · intro h
    unfold selectBy at h
    split at h
    · rename_i ids hev
      split at h
      · cases h
      · cases h
        exact .nodes hev (by simpa using ‹¬ids.isEmpty = true›)
    · rename_i vs hev
      split at h
      · cases h
      · cases h
        exact .attributes hev (by simpa using ‹¬vs.isEmpty = true›)
    · cases h
  · intro h
    cases h with
    | nodes hev hne => simp [selectBy, hev, hne]
    | attributes hev hne => simp [selectBy, hev, hne]

@[simp] theorem bindingsAt_zero (ns : Path.Bindings) (parts : List Part) :
    bindingsAt ns parts 0 = ns := by
  simp [bindingsAt]

theorem bindingsAt_xmlns (ns : Path.Bindings) (p u : String) (rest : List Part) (i : Nat) :
    bindingsAt ns (.xmlns p u :: rest) (i + 1) = bindingsAt (ns.declare p u) rest i := by
  simp [bindingsAt, Path.Bindings.declare, Part.binding?]

theorem bindingsAt_cons_of_binding (ns : Path.Bindings) {part : Part} (h : part.binding? = none)
    (rest : List Part) (i : Nat) :
    bindingsAt ns (part :: rest) (i + 1) = bindingsAt ns rest i := by
  simp [bindingsAt, h]

theorem selectParts_xmlns (ns : Path.Bindings) (p u : String) (rest : List Part) :
    selectParts d node ns (.xmlns p u :: rest) = selectParts d node (ns.declare p u) rest := by
  rw [selectParts]

theorem selectParts_of_expression {ns : Path.Bindings} {part : Part} {expr : String}
    (he : part.expression? = some expr) (rest : List Part) :
    selectParts d node ns (part :: rest) =
      (selectBy d node ns expr).or (selectParts d node ns rest) := by
  cases part
  case xmlns => cases he
  all_goals
    rw [selectParts, he, Option.bind_some]
    · cases selectBy d node ns expr <;> rfl
    · intro p u h
      cases h

section First

variable {ns : Path.Bindings} {part : Part} {rest : List Part} {items : List Selected}

theorem exists_firstSelection_cons {ns' : Path.Bindings}
    (hb : ∀ j, bindingsAt ns (part :: rest) (j + 1) = bindingsAt ns' rest j) :
    (∃ i, FirstSelection d node ns (part :: rest) i items) ↔
      (∃ expr, part.expression? = some expr ∧ Selects d node ns expr items) ∨
        ((∀ expr, part.expression? = some expr → ∀ items', ¬ Selects d node ns expr items') ∧
          ∃ i, FirstSelection d node ns' rest i items) := by
  constructor
  · rintro ⟨_ | i, ⟨q, expr, hq, he, hs⟩, hearlier⟩
    · simp only [List.getElem?_cons_zero, Option.some.injEq] at hq
      subst hq
      exact .inl ⟨expr, he, by simpa using hs⟩
    · refine .inr ⟨fun e he' items' hs' =>
        hearlier 0 (by omega) part e rfl he' items' (by simpa using hs'), i, ⟨q, expr, by simpa using hq, he, by rwa [← hb]⟩, ?_⟩
      intro j hj q' e' hq' he' items'
      rw [← hb]
      exact hearlier (j + 1) (by omega) q' e' (by simpa using hq') he' items'
  · rintro (⟨expr, he, hs⟩ | ⟨hhead, i, ⟨q, expr, hq, he, hs⟩, hearlier⟩)
    · exact ⟨0, ⟨part, expr, rfl, he, by simpa using hs⟩, fun j hj => absurd hj (by omega)⟩
    · refine ⟨i + 1, ⟨q, expr, by simpa using hq, he, by rwa [hb]⟩, ?_⟩
      intro j hj q' e' hq' he' items'
      cases j with
      | zero =>
        simp only [List.getElem?_cons_zero, Option.some.injEq] at hq'
        subst hq'
        simpa using hhead e' he' items'
      | succ j =>
        rw [hb]
        exact hearlier j (by omega) q' e' (by simpa using hq') he' items'

theorem selectParts_cons_eq_some_iff {expr : String} (he : part.expression? = some expr)
    (ih : selectParts d node ns rest = some items ↔ ∃ i, FirstSelection d node ns rest i items) :
    selectParts d node ns (part :: rest) = some items ↔
      ∃ i, FirstSelection d node ns (part :: rest) i items := by
  have hb : part.binding? = none := by cases part <;> simp_all [Part.expression?, Part.binding?]
  rw [selectParts_of_expression he,
    exists_firstSelection_cons (bindingsAt_cons_of_binding ns hb rest), ← ih]
  simp only [he, Option.some.injEq, exists_eq_left', ← selectBy_eq_some_iff]
  cases hsel : selectBy d node ns expr <;> simp [hsel]

end First

theorem selectParts_eq_some_iff :
    ∀ {ns : Path.Bindings} {parts : List Part} {items : List Selected},
    selectParts d node ns parts = some items ↔ ∃ i, FirstSelection d node ns parts i items
  | ns, [], items => by simp [selectParts, FirstSelection]
  | ns, part :: rest, items => by
    cases part
    case xmlns p u =>
      rw [selectParts_xmlns, selectParts_eq_some_iff,
        exists_firstSelection_cons (bindingsAt_xmlns ns p u rest)]
      simp [Part.expression?]
    all_goals exact selectParts_cons_eq_some_iff rfl selectParts_eq_some_iff

theorem FirstSelection.append {ns : Path.Bindings} {parts : List Part} {i : Nat}
    {items : List Selected} (h : FirstSelection d node ns parts i items) (more : List Part) :
    FirstSelection d node ns (parts ++ more) i items := by
  obtain ⟨⟨q, expr, hq, he, hs⟩, hearlier⟩ := h
  have hi : i < parts.length := (List.getElem?_eq_some_iff.mp hq).1
  have hb : ∀ j ≤ i, bindingsAt ns (parts ++ more) j = bindingsAt ns parts j := by
    intro j hj
    simp [bindingsAt, List.take_append_of_le_length (show j ≤ parts.length by omega)]
  refine ⟨⟨q, expr, by rwa [List.getElem?_append_left hi], he, by rwa [hb i (Nat.le_refl i)]⟩, ?_⟩
  intro j hj q' e' hq' he' items'
  rw [hb j (by omega)]
  exact hearlier j hj q' e' (by rwa [List.getElem?_append_left (by omega)] at hq') he' items'

theorem Pointer.evaluate_append_of_ok {parts : List Part} {text : String} {items : List Selected}
    (h : (Pointer.schemeBased parts text).evaluate d node = .ok items) (more : List Part)
    (text' : String) : (Pointer.schemeBased (parts ++ more) text').evaluate d node = .ok items := by
  simp only [Pointer.evaluate] at h ⊢
  cases hs : selectParts d node pointerBindings parts with
  | none => simp [hs] at h
  | some found =>
    simp only [hs, Except.ok.injEq] at h
    subst h
    obtain ⟨i, hi⟩ := selectParts_eq_some_iff.mp hs
    rw [selectParts_eq_some_iff.mpr ⟨i, hi.append more⟩]

end Selection

/-- A scheme-based pointer gives the items of its first part that selects anything, evaluated
with `xml` and the `xmlns()` parts before that part bound; when no part selects, it fails with
the error that names its text, and it fails in no other way. -/
theorem schemeBased_evaluate_iff (d : Document) (node : Nat) (parts : List Part) (text : String) :
    (∀ items, (Pointer.schemeBased parts text).evaluate d node = .ok items ↔
      ∃ i, FirstSelection d node pointerBindings parts i items) ∧
    ∀ e, (Pointer.schemeBased parts text).evaluate d node = .error e ↔
      e = .noSubresources text ∧ ∀ i items, ¬ FirstSelection d node pointerBindings parts i items := by
  simp only [Pointer.evaluate]
  cases h : selectParts d node pointerBindings parts with
  | some found =>
    obtain ⟨i, hi⟩ := selectParts_eq_some_iff.mp h
    refine ⟨fun items => ?_, fun e => ?_⟩
    · rw [← selectParts_eq_some_iff, h]
      simp
    · simp only [reduceCtorEq, false_iff, not_and]
      exact fun _ hno => hno i found hi
  | none =>
    have hnone : ∀ i items, ¬ FirstSelection d node pointerBindings parts i items := by
      intro i items hi
      have hsome := selectParts_eq_some_iff.mpr ⟨i, hi⟩
      rw [h] at hsome
      cases hsome
    refine ⟨fun items => ?_, fun e => ?_⟩
    · simp only [reduceCtorEq, false_iff]
      exact fun ⟨i, hi⟩ => hnone i items hi
    · simp [hnone, eq_comm]

end XmlPointer
