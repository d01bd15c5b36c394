import Mathlib
import XmlPointer.Proofs.Namespaces

/-! # What a history of scope operations binds

A history of operations on namespace scopes opens scopes, declares prefixes in the innermost
one and closes it again. A declaration stays in force until the first point after it where
more scopes have been closed than opened: that close ends the scope it was made in. A prefix
then resolves to the URI of the latest declaration of it in force, `xml` and `xmlns` to their
fixed namespaces. `Scopes.run_eq` gives the bindings a history leaves, each at the depth it was
made at, and `Scopes.resolve_run` the resolution rule. A build opens one scope per element and
closes it with the element, so its scope depth is the count of open elements. -/
namespace XmlPointer

namespace Scopes

/-- An operation on scopes. -/
inductive Op where
  | push
  | declare (pre uri : String)
  | pop
  deriving Repr, DecidableEq

/-- Applies one operation. -/
def apply (s : Scopes) : Op → Scopes
  | .push => s.push
  | .declare p u => s.declare p u
  | .pop => s.pop

def run (s : Scopes) (ops : List Op) : Scopes :=
  ops.foldl apply s

/-- What an operation does to the count of open scopes. -/
def Op.shift : Op → Int
  | .push => 1
  | .declare _ _ => 0
  | .pop => -1

def opened (ops : List Op) : Int :=
  (ops.map Op.shift).sum

def Closes (ops : List Op) : Prop :=
  ∃ k ≤ ops.length, opened (ops.take k) < 0

instance : DecidablePred Closes := fun ops =>
  inferInstanceAs (Decidable (∃ k ≤ ops.length, opened (ops.take k) < 0))

/-- The declarations that no later operation takes back, in order. -/
def live : List Op → List (String × String)
  | [] => []
  | .declare p u :: rest => if Closes rest then live rest else (p, u) :: live rest
  | _ :: rest => live rest

/-- The URI a prefix resolves to after a history, by the rules of scopes: `xml` and `xmlns` have
their fixed namespaces; any other prefix has the URI of its latest declaration in force, the
empty URI unbinding it, and the default namespace (the empty prefix) that URI or none. -/
def resolveAfter (ops : List Op) (p : String) : Option String :=
  if p = "xml" then some xmlNamespace
  else if p = "xmlns" then some xmlnsNamespace
  else
    let found := ((live ops).reverse.find? (·.1 == p)).map (·.2)
    if p.isEmpty then some (found.getD "") else found.filter (!·.isEmpty)

/-- The depth after operations from depth `d`; closing at depth 0 stays there. -/
def depthAfter : Nat → List Op → Nat
  | d, [] => d
  | d, .push :: rest => depthAfter (d + 1) rest
  | d, .declare _ _ :: rest => depthAfter d rest
  | d, .pop :: rest => depthAfter (d - 1) rest

/-- A declaration in force, with the count of scopes open when it was made. -/
structure LiveBinding where
  prefixName : String
  uri : String
  depth : Nat

def LiveBinding.toBinding (b : LiveBinding) : Binding :=
  ⟨b.prefixName, b.uri, .ofNat b.depth⟩

/-- The bindings of the declarations in force, in order, each at the depth it was made at when
the operations start at depth `d`; `xml` and `xmlns` are never bound. -/
def liveBindings : Nat → List Op → List LiveBinding
  | _, [] => []
  | d, .push :: rest => liveBindings (d + 1) rest
  | d, .declare p u :: rest =>
    (if Closes rest ∨ p = "xml" ∨ p = "xmlns" then [] else [⟨p, u, d⟩]) ++ liveBindings d rest
  | d, .pop :: rest => liveBindings (d - 1) rest

/-! ## Counting open scopes -/

@[simp] theorem opened_nil : opened [] = 0 := rfl

@[simp] theorem opened_cons (op : Op) (ops : List Op) : opened (op :: ops) = op.shift + opened ops := by
  simp [opened]

@[simp] theorem opened_append (ops ops' : List Op) : opened (ops ++ ops') = opened ops + opened ops' := by
  simp [opened]

theorem not_closes_iff {ops : List Op} : ¬ Closes ops ↔ ∀ k, 0 ≤ opened (ops.take k) := by
  constructor
  · intro h k
    by_cases hk : k ≤ ops.length
    · exact not_lt.mp fun hlt => h ⟨k, hk, hlt⟩
    · have := not_lt.mp fun hlt => h ⟨ops.length, le_rfl, hlt⟩
      rwa [List.take_of_length_le (by omega)] at this ⊢
  · rintro h ⟨k, -, hk⟩
    exact absurd (h k) (not_le.mpr hk)

theorem closes_append_singleton (ops : List Op) (op : Op) :
    Closes (ops ++ [op]) ↔ Closes ops ∨ opened (ops ++ [op]) < 0 := by
  rw [← not_iff_not, not_or, not_closes_iff, not_closes_iff, not_lt]
  constructor
  · intro h
    refine ⟨fun k => ?_, ?_⟩
    · by_cases hk : k ≤ ops.length
      · simpa [List.take_append_of_le_length hk] using h k
      · simpa [List.take_of_length_le (Nat.le_of_not_le hk)] using h ops.length
    · have := h (ops.length + 1)
      rwa [List.take_of_length_le (by simp)] at this
  · rintro ⟨h, hlast⟩ k
    by_cases hk : k ≤ ops.length
    · simpa [List.take_append_of_le_length hk] using h k
    · rwa [List.take_of_length_le (by simp; omega)]

theorem closes_append_push (ops : List Op) : Closes (ops ++ [.push]) ↔ Closes ops := by
  rw [closes_append_singleton]
  refine ⟨fun h => h.elim id fun hlt => ⟨ops.length, le_rfl, ?_⟩, .inl⟩
  simp [Op.shift] at hlt
  rw [List.take_length]
  omega

theorem closes_append_declare (ops : List Op) (p u : String) :
    Closes (ops ++ [.declare p u]) ↔ Closes ops := by
  rw [closes_append_singleton]
  refine ⟨fun h => h.elim id fun hlt => ⟨ops.length, le_rfl, ?_⟩, .inl⟩
  simp [Op.shift] at hlt
  rwa [List.take_length]

theorem closes_append_pop (ops : List Op) : Closes (ops ++ [.pop]) ↔ Closes ops ∨ opened ops ≤ 0 := by
  rw [closes_append_singleton, opened_append]
  refine or_congr_right ?_
  simp only [opened_cons, opened_nil, Op.shift]
  omega

theorem not_closes_of_append {ops ops' : List Op} (h : ¬ Closes (ops ++ ops')) : ¬ Closes ops := by
  rw [not_closes_iff] at h ⊢
  intro k
  by_cases hk : k ≤ ops.length
  · simpa [List.take_append_of_le_length hk] using h k
  · simpa [List.take_of_length_le (Nat.le_of_not_le hk)] using h ops.length

theorem depthAfter_eq {d : Nat} {ops : List Op} (h : ∀ k, 0 ≤ d + opened (ops.take k)) :
    (depthAfter d ops : Int) = d + opened ops := by
  induction ops generalizing d with
  | nil => simp [depthAfter]
  | cons op rest ih =>
    have hstep : ∀ k, 0 ≤ d + op.shift + opened (rest.take k) := fun k => by
      simpa [add_assoc] using h (k + 1)
    have hd : 0 ≤ (d : Int) + op.shift := by simpa using h 1
    cases op with
    | push =>
      simp only [Op.shift] at hstep
      have := ih (d := d + 1) (fun k => by have := hstep k; omega)
      simp only [depthAfter, this, opened_cons, Op.shift]
      omega
    | declare p u =>
      simp only [Op.shift] at hstep
      have := ih (d := d) (fun k => by have := hstep k; omega)
      simp only [depthAfter, this, opened_cons, Op.shift]
      omega
    | pop =>
      simp only [Op.shift] at hstep hd
      have := ih (d := d - 1) (fun k => by have := hstep k; omega)
      simp only [depthAfter, this, opened_cons, Op.shift]
      omega

theorem depthAfter_append (d : Nat) (ops ops' : List Op) :
    depthAfter d (ops ++ ops') = depthAfter (depthAfter d ops) ops' := by
  induction ops generalizing d with
  | nil => rfl
  | cons op rest ih => cases op <;> simp [depthAfter, ih]

/-! ## The bindings in force -/

theorem liveBindings_pairs (d : Nat) (ops : List Op) :
    (liveBindings d ops).map (fun b => (b.prefixName, b.uri)) =
      (live ops).filter fun q => !(q.1 = "xml" ∨ q.1 = "xmlns") := by
  induction ops generalizing d with
  | nil => rfl
  | cons op rest ih =>
    cases op with
    | push | pop => simpa [liveBindings, live] using ih _
    | declare p u =>
      by_cases hc : Closes rest
      · simp [liveBindings, live, hc, ih]
      · by_cases hr : p = "xml" ∨ p = "xmlns"
        · rcases hr with rfl | rfl <;> simp [liveBindings, live, hc, ih]
        · simp only [not_or] at hr
          simp [liveBindings, live, hc, hr, ih]

theorem le_depth_of_mem_liveBindings {e d : Nat} {ops : List Op}
    (h : ∀ k, (e : Int) ≤ d + opened (ops.take k)) : ∀ b ∈ liveBindings d ops, e ≤ b.depth := by
  induction ops generalizing d with
  | nil => simp [liveBindings]
  | cons op rest ih =>
    have hstep : ∀ k, (e : Int) ≤ d + op.shift + opened (rest.take k) := fun k => by
      simpa [add_assoc] using h (k + 1)
    have hd : (e : Int) ≤ d + op.shift := by simpa using h 1
    cases op with
    | push => simpa [liveBindings] using ih (d := d + 1) (by simpa [Op.shift] using hstep)
    | pop =>
      simp only [Op.shift] at hd
      have hd' : 1 ≤ d := by omega
      simpa [liveBindings] using ih (d := d - 1) (fun k => by
        simpa [Op.shift, Nat.cast_sub hd', sub_eq_add_neg] using hstep k)
    | declare p u =>
      intro b hb
      simp only [liveBindings, List.mem_append] at hb
      rcases hb with hb | hb
      · split_ifs at hb
        · simp at hb
        · simp only [List.mem_singleton] at hb
          subst hb
          simpa [Op.shift] using hd
      · exact ih (d := d) (by simpa [Op.shift] using hstep) b hb

theorem liveBindings_sorted (d : Nat) (ops : List Op) :
    (liveBindings d ops).Pairwise (fun a b => a.depth ≤ b.depth) := by
  induction ops generalizing d with
  | nil => exact .nil
  | cons op rest ih =>
    cases op with
    | push | pop => exact ih _
    | declare p u =>
      simp only [liveBindings]
      split_ifs with hc
      · exact ih d
      · refine List.pairwise_append.mpr ⟨by simp, ih d, ?_⟩
        simp only [List.mem_singleton, forall_eq]
        have hrest := not_closes_iff.mp (not_or.mp hc).1
        exact le_depth_of_mem_liveBindings (e := d) (fun k => by have := hrest k; omega)

theorem depth_le_of_mem_liveBindings (d : Nat) (ops : List Op) :
    ∀ b ∈ liveBindings d ops, b.depth ≤ depthAfter d ops := by
  induction ops generalizing d with
  | nil => simp [liveBindings]
  | cons op rest ih =>
    cases op with
    | push | pop => exact ih _
    | declare p u =>
      intro b hb
      simp only [liveBindings, List.mem_append] at hb
      rcases hb with hb | hb
      · split_ifs at hb with hc
        · simp at hb
        · simp only [List.mem_singleton] at hb
          subst hb
          have hrest := not_closes_iff.mp (not_or.mp hc).1
          have := @depthAfter_eq d rest (fun k => by have := hrest k; omega)
          have := hrest rest.length
          simp only [List.take_length] at this
          change d ≤ depthAfter d rest
          omega
      · exact ih d b hb

theorem liveBindings_append_push (d : Nat) (ops : List Op) :
    liveBindings d (ops ++ [.push]) = liveBindings d ops := by
  induction ops generalizing d with
  | nil => rfl
  | cons op rest ih =>
    cases op with
    | push | pop => exact ih _
    | declare p u => simp [liveBindings, closes_append_push, ih]

theorem liveBindings_append_declare (d : Nat) (ops : List Op) (p u : String) :
    liveBindings d (ops ++ [.declare p u]) =
      liveBindings d ops ++ if p = "xml" ∨ p = "xmlns" then [] else [⟨p, u, depthAfter d ops⟩] := by
  induction ops generalizing d with
  | nil =>
    have h0 : ¬ Closes [] := fun ⟨k, _, hk⟩ => by simp at hk
    simp [liveBindings, depthAfter, h0]
  | cons op rest ih =>
    cases op with
    | push | pop => exact ih _
    | declare q v => simp [liveBindings, closes_append_declare, ih, depthAfter]

theorem liveBindings_append_pop (d : Nat) (ops : List Op) :
    liveBindings d (ops ++ [.pop]) = (liveBindings d ops).filter (·.depth < depthAfter d ops) := by
  induction ops generalizing d with
  | nil => rfl
  | cons op rest ih =>
    cases op with
    | push | pop => exact ih _
    | declare p u =>
      -- the declaration stays exactly when the scope it was made in is still open below the close
      have hkeep : ¬ Closes (rest ++ [.pop]) ↔ ¬ Closes rest ∧ d < depthAfter d rest := by
        rw [closes_append_pop, not_or]
        refine and_congr_right fun hc => ?_
        have := @depthAfter_eq d rest
          (fun k => by have := not_closes_iff.mp hc k; omega)
        omega
      simp only [List.cons_append, liveBindings, ih, depthAfter, List.filter_append]
      congr 1
      by_cases hr : p = "xml" ∨ p = "xmlns"
      · simp [hr]
      · by_cases hc : Closes (rest ++ [.pop])
        · have : Closes rest ∨ depthAfter d rest ≤ d := by
            by_contra hn
            rw [not_or, not_le] at hn
            exact (hkeep.mpr hn) hc
          rcases this with h1 | h1
          · simp [hc, hr, h1]
          · simp [hc, hr, not_lt.mpr h1]
        · simp [hc, hr, hkeep.mp hc]

/-! ## Runs -/

theorem run_append_singleton (s : Scopes) (ops : List Op) (op : Op) :
    s.run (ops ++ [op]) = (s.run ops).apply op := by
  simp [run, List.foldl_append]

/-- Closing the scope at depth `D`, below the top of the 16-bit count, drops the bindings made
at that depth, which stand in front. -/
theorem dropWhile_closed {M : List LiveBinding} {D : Nat} (hD : 0 < D) (hD' : D < 65536)
    (hsorted : M.Pairwise (fun a b => b.depth ≤ a.depth)) (hle : ∀ b ∈ M, b.depth ≤ D) :
    (M.map LiveBinding.toBinding ++ initial.bindings).dropWhile
        (fun b => decide (b.depth ≥ UInt16.ofNat D) && decide (b.depth > 0)) =
      (M.filter (·.depth < D)).map LiveBinding.toBinding ++ initial.bindings := by
  have htoNat : ∀ {m}, m ≤ D → (UInt16.ofNat m).toNat = m :=
    fun hm => UInt16.toNat_ofNat_of_lt' (by simp [UInt16.size]; omega)
  induction M with
  | nil => simp [initial]
  | cons b M ih =>
    obtain ⟨hb, hM⟩ := List.pairwise_cons.mp hsorted
    have hbD := hle b (by simp)
    by_cases hlt : b.depth < D
    · -- the front binding was made further out, so nothing is dropped
      have hall : ∀ c ∈ M, c.depth < D := fun c hc => by have := hb c hc; omega
      have hfilter : M.filter (·.depth < D) = M := List.filter_eq_self.mpr (by simpa using hall)
      have hkeep : ¬ UInt16.ofNat b.depth ≥ UInt16.ofNat D := by
        rw [ge_iff_le, UInt16.le_iff_toNat_le, htoNat hbD, htoNat le_rfl]
        omega
      rw [List.map_cons, List.cons_append, List.dropWhile_cons_of_neg (by
        simp [LiveBinding.toBinding, hkeep]), List.filter_cons_of_pos (by simpa using hlt),
        hfilter]
      rfl
    · have hpos : (0 : UInt16) < UInt16.ofNat D := by
        rw [UInt16.lt_iff_toNat_lt, htoNat le_rfl]
        simpa using hD
      obtain rfl : b.depth = D := by omega
      rw [List.map_cons, List.cons_append, List.dropWhile_cons_of_pos (by
        simp [LiveBinding.toBinding, hpos]), List.filter_cons_of_neg (by simp)]
      exact ih hM fun c hc => hle c (by simp [hc])

theorem ofNat_sub_one {D : Nat} (hD : 0 < D) : UInt16.ofNat D - 1 = UInt16.ofNat (D - 1) := by
  obtain ⟨D', rfl⟩ : ∃ D', D = D' + 1 := ⟨D - 1, by omega⟩
  rw [UInt16.ofNat_add, Nat.add_sub_cancel]
  exact UInt16.add_sub_cancel _ _

@[simp] theorem pairs_toBinding (M : List LiveBinding) :
    (M.map LiveBinding.toBinding).map (fun b => (b.prefixName, b.uri)) =
      M.map fun b => (b.prefixName, b.uri) := by
  simp [Function.comp_def, LiveBinding.toBinding]

/-- The scopes a history leaves, if it never has 65536 scopes open: the bindings in force,
latest first, in front of those of `xml` and `xmlns`, and as many open scopes as opened and not
closed. -/
theorem run_eq {ops : List Op} (h : ¬ Closes ops)
    (hdeep : ∀ k ≤ ops.length, opened (ops.take k) < 65536) :
    initial.run ops = ⟨((liveBindings 0 ops).map LiveBinding.toBinding).reverse ++ initial.bindings,
      UInt16.ofNat (depthAfter 0 ops)⟩ := by
  induction ops using List.reverseRecOn with
  | nil => rfl
  | append_singleton ops op ih =>
    have hdeep' : ∀ k ≤ ops.length, opened (ops.take k) < 65536 := fun k hk => by
      have := hdeep k (by simp; omega)
      rwa [List.take_append_of_le_length hk] at this
    rw [run_append_singleton, ih (not_closes_of_append h) hdeep']
    cases op with
    | push =>
      simp [apply, push, liveBindings_append_push, depthAfter_append, depthAfter, UInt16.ofNat_add]
    | declare p u =>
      simp only [apply, declare, liveBindings_append_declare, depthAfter_append, depthAfter]
      by_cases hr : p = "xml" ∨ p = "xmlns"
      · have hb : (p = "xml" || p = "xmlns") = true := by simpa using hr
        simp [hb, hr]
      · have hb : (p = "xml" || p = "xmlns") = false := by simpa using hr
        simp [hb, hr, LiveBinding.toBinding]
    | pop =>
      have hc := (closes_append_pop ops).not.mp h
      have hD := @depthAfter_eq 0 ops
        (fun k => by simpa using not_closes_iff.mp (not_or.mp hc).1 k)
      have hpos : 0 < depthAfter 0 ops := by have := (not_or.mp hc).2; omega
      -- the count never reached 65536, so it did not wrap
      have hlt : depthAfter 0 ops < 65536 := by
        have := hdeep' ops.length le_rfl
        rw [List.take_length] at this
        omega
      have hne : UInt16.ofNat (depthAfter 0 ops) ≠ 0 := fun h0 => by
        have := congrArg UInt16.toNat h0
        rw [UInt16.toNat_ofNat_of_lt' (by simp [UInt16.size]; omega)] at this
        simp at this
        omega
      simp only [apply, pop, liveBindings_append_pop, depthAfter_append, depthAfter, if_neg hne,
        ← List.map_reverse, ← List.filter_reverse]
      rw [dropWhile_closed hpos hlt (List.pairwise_reverse.mpr (liveBindings_sorted 0 ops))
        (fun b hb => depth_le_of_mem_liveBindings 0 ops b (List.mem_reverse.mp hb))]
      congr 1
      exact ofNat_sub_one hpos

theorem lookup_eq_pairs (s : Scopes) (p : String) :
    s.lookup p = ((s.bindings.map fun b => (b.prefixName, b.uri)).find? (·.1 == p)).map (·.2) := by
  simp [lookup, List.find?_map, Function.comp_def]

theorem find?_filter_of_imp {α : Type} {p q : α → Bool} (h : ∀ a, q a = true → p a = true)
    (l : List α) : (l.filter p).find? q = l.find? q := by
  induction l with
  | nil => rfl
  | cons a l ih =>
    by_cases hq : q a = true
    · simp [h a hq, hq]
    · by_cases hp : p a = true <;> simp [hp, hq, ih]

theorem lookup_run {ops : List Op} (h : ¬ Closes ops)
    (hdeep : ∀ k ≤ ops.length, opened (ops.take k) < 65536) (p : String) :
    (initial.run ops).lookup p =
      if p = "xml" then some xmlNamespace else if p = "xmlns" then some xmlnsNamespace
      else ((live ops).reverse.find? (·.1 == p)).map (·.2) := by
  rw [lookup_eq_pairs, run_eq h hdeep, List.map_append, List.map_reverse, pairs_toBinding,
    liveBindings_pairs,
    ← List.filter_reverse, List.find?_append]
  by_cases hr : p = "xml" ∨ p = "xmlns"
  · -- no declaration of `xml` or `xmlns` is kept
    have hnone : ((live ops).reverse.filter fun q => !(q.1 = "xml" ∨ q.1 = "xmlns")).find?
        (·.1 == p) = none := by
      rw [List.find?_eq_none]
      intro q hq
      have hkept := (List.mem_filter.mp hq).2
      simp only [beq_iff_eq]
      rintro rfl
      simp [hr] at hkept
    rw [hnone]
    rcases hr with rfl | rfl <;> simp [initial]
  · rw [find?_filter_of_imp (fun q hq => by simp at hq; simp [hq, hr]) _]
    simp only [not_or] at hr
    simp [initial, hr, Ne.symm hr.1, Ne.symm hr.2]

theorem resolve_run {ops : List Op} (h : ¬ Closes ops)
    (hdeep : ∀ k ≤ ops.length, opened (ops.take k) < 65536) (p : String) :
    (initial.run ops).resolve p = resolveAfter ops p := by
  rw [resolve_eq, lookup_run h hdeep]
  unfold resolveAfter
  by_cases hx : p = "xml"
  · subst hx
    simp [xmlNamespace]
  · by_cases hxs : p = "xmlns"
    · subst hxs
      simp [xmlnsNamespace]
    · simp [hx, hxs]

end Scopes

/-! ## The scopes of a build -/

namespace Builder

variable {b : Builder}

theorem run_append : ∀ (evs evs' : List (Nat × Markup.Event)) (c : Builder),
    c.run (evs ++ evs') = (c.run evs).bind (·.run evs')
  | [], _, _ => rfl
  | (offset, ev) :: rest, evs', c => by
    simp only [List.cons_append, Builder.run]
    cases c.step offset ev with
    | error e => rfl
    | ok c1 => exact run_append rest evs' c1

theorem scopes_depth_of_run {input : List UInt8} {strict : Bool} {d : Document}
    (hd : Document.parse input strict = .ok d) (hnest : ∀ x < d.size, (d.ancestors x).length < 65536)
    {k : Nat} (h : (start strict).run ((Markup.events strict input).1.take k) = .ok b) :
    b.scopes.depth.toNat = b.stack.length := by
  obtain ⟨bf, hrun, hnodes, -⟩ := parse_eq_ok hd
  rw [← List.take_append_drop k (Markup.events strict input).1, run_append, h] at hrun
  have hinv := ((Inv.start strict).run (Records.start strict) h).1
  have hn : d.nodes = bf.arena.nodes := hnodes
  -- the state on the way is as shallow as the end, whose nodes are the document's
  have hshallow : Shallow bf := fun y hy => by
    have := hnest y (by rw [Document.size_congr hn]; exact hy)
    rwa [Document.ancestors_congr hn] at this
  have hb := Shallow.of_run hinv hrun hshallow
  have hlen := hinv.stack_length_lt hb
  rw [ScopesFit.run (Inv.start strict) (ScopesFit.start strict) h hb, Document.depth_scopesOf,
    UInt16.toNat_ofNat_of_lt' (by simp [UInt16.size]; omega)]

end Builder

/-- With fewer than 65536 scopes open at every point, a history of scope operations that never
closes more scopes than it opened resolves every prefix by the rules of scopes. In every
document a build yields, strictly or leniently, with fewer than 65536 ancestors to every node,
the build keeps one scope per open element at every event, and each element's namespace, and
each of its prefixed attributes' namespace, is its prefix resolved among the declarations of
the element and its ancestors. -/
theorem Scopes.resolve_by_scope_rules (ops : List Scopes.Op) (hops : ¬ Scopes.Closes ops)
    (hdeep : ∀ k ≤ ops.length, Scopes.opened (ops.take k) < 65536)
    {input : List UInt8} {strict : Bool} {d : Document} (hd : Document.parse input strict = .ok d)
    (hnest : ∀ x < d.size, (d.ancestors x).length < 65536) :
    (∀ p, (Scopes.initial.run ops).resolve p = Scopes.resolveAfter ops p) ∧
      (∀ k b, (Builder.start strict).run ((Markup.events strict input).1.take k) = .ok b →
        b.scopes.depth.toNat = b.stack.length) ∧
      ∀ x n, d.node? x = some n → n.kind = .element →
        n.NamespacesIn (d.scopesOf (x :: d.ancestors x)) :=
  ⟨fun p => Scopes.resolve_run hops hdeep p, fun _ _ hb => Builder.scopes_depth_of_run hd hnest hb,
    fun _ _ hx hk => (Document.parse_namespaces hd hnest hx hk).2⟩

/-- Two nested declarations of one prefix: the inner one, made with the empty URI, is taken back
by the close, and the outer one is in force again; and a prefixed element of a parsed document is
in the namespace its parent declares. -/
theorem Scopes.resolve_after_inner_unbinding :
    ∃ d, Document.parse "<r xmlns:p=\"urn:a\"><p:e/></r>".toUTF8.toList true = .ok d ∧
      (Scopes.initial.run [.push, .declare "p" "urn:a", .push, .declare "p" "", .pop]).resolve "p" =
        some "urn:a" ∧
      ∀ x n, d.node? x = some n → n.kind = .element →
        n.NamespacesIn (d.scopesOf (x :: d.ancestors x)) := by
  have hnest : (Document.parse "<r xmlns:p=\"urn:a\"><p:e/></r>".toUTF8.toList true).toOption.map
      (fun d => decide (∀ x < d.size, (d.ancestors x).length < 65536)) = some true := by
    decide +kernel
  cases hd : Document.parse "<r xmlns:p=\"urn:a\"><p:e/></r>".toUTF8.toList true with
  | error e => rw [hd] at hnest; cases hnest
  | ok d =>
    rw [hd] at hnest
    simp only [Except.toOption, Option.map_some, Option.some.injEq, decide_eq_true_eq] at hnest
    obtain ⟨hres, -, hns⟩ := Scopes.resolve_by_scope_rules
      [.push, .declare "p" "urn:a", .push, .declare "p" "", .pop] (by decide) (by decide) hd hnest
    exact ⟨d, rfl, (hres "p").trans (by decide), hns⟩

end XmlPointer
