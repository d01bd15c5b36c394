import Mathlib
import XmlPointer.Proofs.PathParseSound

/-! # The expression parser reads every derivation of the grammar

Each nonterminal of the grammar is read by one function of the parser. Followed by a token that
may follow the nonterminal, the tokens of a derivation are read whole, with the derivation's tree,
from a depth bound of `32` per token and a constant of the nonterminal on (`Complete`): the
one-token lookahead of each function sees which rule the derivation used, since the rules of a
nonterminal start with different tokens (`Derives.begins`) and a repetition stops at a token that
may follow it. The proof goes by induction on the derivation, one lemma per grammar rule.

With soundness, `parse` accepts a text exactly when the tokens before `eof` derive an expression,
and then returns the expression's tree (`parse_eq_ok_iff`). -/
namespace XmlPointer.Path

open TokenParser

def endsLevel (l : Nat) (t : PathToken) : Bool :=
  endsOperand t || t.sameAs .comma || (List.range l).any fun k => (levelOperator k t).isSome

def endsSteps (t : PathToken) : Prop :=
  t.sameAs .slash = false ∧ t.sameAs .doubleSlash = false ∧ t.sameAs .leftBracket = false

def levelParser (l f : Nat) : TokenParser Expr :=
  if l < 6 then binaryLevel f l else unary f

/-- Followed by a token that `stop` accepts, tokens of the kinds `ts` are read whole by `p` from
the depth bound `c` on, with the value `v`. -/
def ReadsAll {α : Type} (ts : List PathToken) (stop : PathToken → Prop) (c : Nat)
    (p : Nat → TokenParser α) (v : α) : Prop :=
  ∀ pts t q rest, pts.map Prod.fst = ts → stop t →
    Reads c p (pts ++ (t, q) :: rest) ((t, q) :: rest) v

/-- What the parser reads of a derivation of each nonterminal: the function that reads it, the
tokens that may follow it, and the depth bound, `32` per token and a constant. A filter
expression is read by two functions in turn, the primary expression and its predicates. -/
def Complete : (s : Nonterminal) → List PathToken → s.Value → Prop
  | .level l, ts, e => ReadsAll ts (endsLevel l · = true) (32 * ts.length + (19 - 2 * l))
      (levelParser l) e
  | .operators l a, ts, e =>
    ReadsAll ts (endsLevel l · = true) (32 * ts.length + 1) (binaryRest · l a) e
  | .union, ts, e => ReadsAll ts (endsLevel 6 · = true) (32 * ts.length + 6) union e
  | .unions a, ts, e => ReadsAll ts (endsLevel 6 · = true) (32 * ts.length + 1) (unionRest · a) e
  | .path, ts, e =>
    ReadsAll ts (fun t => endsLevel 6 t = true ∨ t = .pipe) (32 * ts.length + 5) pathExpr e
  | .filter, ts, e => ∀ pts t q rest, pts.map Prod.fst = ts → t.sameAs .leftBracket = false →
    ∃ p ps mid, e = (if ps.isEmpty then p else .filter p ps) ∧
      Reads (32 * ts.length + 1) primaryExpr (pts ++ (t, q) :: rest) mid p ∧
      Reads (32 * ts.length + 1) predicates mid ((t, q) :: rest) ps
  | .primary, ts, e => ReadsAll ts (fun _ => True) (32 * ts.length + 1) primaryExpr e
  | .args, ts, es => ReadsAll ts (fun t => endsLevel 0 t = true ∧ t.sameAs .comma = false)
      (32 * ts.length + 21) arguments es
  | .predicates, ts, ps =>
    ReadsAll ts (·.sameAs .leftBracket = false) (32 * ts.length + 1) predicates ps
  | .relativePath, ts, ss => ReadsAll ts endsSteps (32 * ts.length + 4) relativePath ss
  | .moreSteps, ts, ss => ReadsAll ts endsSteps (32 * ts.length + 1) stepsRest ss
  | .step, ts, s => ReadsAll ts (·.sameAs .leftBracket = false) (32 * ts.length + 3) step s
  | .nodeTest, ts, test => ReadsAll ts (fun _ => True) 0 (fun _ => nodeTest) test

section Follow

theorem levelOperator_unique {k l : Nat} {t : PathToken} {a b : BinaryOp}
    (h₁ : levelOperator k t = some a) (h₂ : levelOperator l t = some b) : k = l := by
  unfold levelOperator at h₁ h₂
  split at h₁ <;> split at h₂ <;> simp_all

theorem endsLevel_mono {l l' : Nat} {t : PathToken} (h : endsLevel l t = true) (hl : l ≤ l') :
    endsLevel l' t = true := by
  simp only [endsLevel, Bool.or_eq_true, List.any_eq_true, List.mem_range] at h ⊢
  rcases h with h | ⟨k, hk, hop⟩
  · exact .inl h
  · exact .inr ⟨k, by omega, hop⟩

theorem endsLevel_succ {l : Nat} {t : PathToken} {op : BinaryOp} (h : levelOperator l t = some op) :
    endsLevel (l + 1) t = true := by
  simp only [endsLevel, Bool.or_eq_true, List.any_eq_true, List.mem_range]
  exact .inr ⟨l, by omega, by simp [h]⟩

theorem levelOperator_of_endsLevel {l : Nat} {t : PathToken} (h : endsLevel l t = true) :
    levelOperator l t = none := by
  simp only [endsLevel, Bool.or_eq_true, List.any_eq_true, List.mem_range] at h
  rcases h with (h | h) | ⟨k, hk, hop⟩
  · exact levelOperator_of_endsOperand h l
  · obtain rfl := PathToken.eq_of_sameAs h rfl
    unfold levelOperator
    split <;> simp_all
  · obtain ⟨a, ha⟩ := Option.isSome_iff_exists.mp hop
    cases hb : levelOperator l t with
    | none => rfl
    | some b => exact absurd (levelOperator_unique ha hb) (by omega)

theorem append_cons_headD (pts : Tokens) (t : PathToken) (q : Nat) (rest : Tokens) :
    ∃ q' rest', pts ++ (t, q) :: rest = ((pts.map Prod.fst).headD t, q') :: rest' := by
  cases pts with
  | nil => exact ⟨q, rest, rfl⟩
  | cons x xs => exact ⟨x.2, xs ++ (t, q) :: rest, rfl⟩

theorem map_fst_eq_cons {pts : Tokens} {t : PathToken} {ts : List PathToken}
    (h : pts.map Prod.fst = t :: ts) : ∃ q pts', pts = (t, q) :: pts' ∧ pts'.map Prod.fst = ts := by
  obtain ⟨⟨t', q⟩, pts', rfl, rfl, h'⟩ := List.map_eq_cons_iff.mp h
  exact ⟨q, pts', rfl, h'⟩

theorem Derives.operators_follow {l : Nat} {a e : Expr} {us : List PathToken}
    (h : Derives (.operators l a) us e) {t : PathToken} (ht : endsLevel l t = true) :
    endsLevel (l + 1) (us.headD t) = true := by
  cases h with
  | opsNil => exact endsLevel_mono ht (by omega)
  | opsCons hop => exact endsLevel_succ (levelOperator_eq_some_iff.mpr hop)

theorem Derives.unions_follow {a e : Expr} {us : List PathToken} (h : Derives (.unions a) us e)
    {t : PathToken} (ht : endsLevel 6 t = true) :
    endsLevel 6 (us.headD t) = true ∨ us.headD t = .pipe := by
  cases h with
  | unionsNil => exact .inl ht
  | unionsCons => exact .inr rfl

theorem Derives.moreSteps_follow {us : List PathToken} {ss : List (Step Expr)}
    (h : Derives .moreSteps us ss) {t : PathToken} (ht : endsSteps t) :
    (us.headD t).sameAs .leftBracket = false := by
  cases h with
  | stepsNil => exact ht.2.2
  | slashStep | doubleSlashStep => rfl

end Follow

theorem ReadsAll.seq {α β : Type} {ts us : List PathToken} {stop₁ stop₂ : PathToken → Prop}
    {c₁ c₂ : Nat} {p₁ : Nat → TokenParser α} {p₂ : Nat → TokenParser β} {a : α} {b : β}
    (h₁ : ReadsAll ts stop₁ c₁ p₁ a) (h₂ : ReadsAll us stop₂ c₂ p₂ b)
    (follow : ∀ {t}, stop₂ t → stop₁ (us.headD t)) {pts : Tokens} {t : PathToken} (q : Nat)
    (rest : Tokens) (hpts : pts.map Prod.fst = ts ++ us) (hstop : stop₂ t) :
    ∃ pts₁ pts₂, pts = pts₁ ++ pts₂ ∧ pts₁.map Prod.fst = ts ∧
      Reads c₁ p₁ (pts₁ ++ (pts₂ ++ (t, q) :: rest)) (pts₂ ++ (t, q) :: rest) a ∧
      Reads c₂ p₂ (pts₂ ++ (t, q) :: rest) ((t, q) :: rest) b := by
  obtain ⟨pts₁, pts₂, rfl, rfl, rfl⟩ := List.map_eq_append_iff.mp hpts
  obtain ⟨q', rest', hsplit⟩ := append_cons_headD pts₂ t q rest
  refine ⟨pts₁, pts₂, rfl, rfl, ?_, h₂ pts₂ t q rest rfl hstop⟩
  rw [hsplit]
  exact h₁ pts₁ _ q' rest' rfl (follow hstop)

theorem operand_succ_eq {l : Nat} (hl : l < 6) (g : Nat) :
    operand (g + 1) l = levelParser (l + 1) g := by
  by_cases h : l < 5
  · simp [operand, levelParser, lastLevel, h, show l + 1 < 6 by omega]
  · simp [operand, levelParser, lastLevel, h, show ¬ l + 1 < 6 by omega]

theorem expr_succ_eq (g : Nat) : expr (g + 1) = levelParser 0 g := by
  simp [expr, levelParser]

theorem levelParser_six : levelParser 6 = unary := by
  funext f
  simp [levelParser]

theorem sameAs_minus_of_startsPath {t : PathToken} (h : startsPath t = true) :
    t.sameAs .minus = false := by
  cases t <;> simp_all [startsPath, startsStep, startsPrimary, PathToken.sameAs]

theorem sameAs_pipe_of_endsLevel {l : Nat} {t : PathToken} (h : endsLevel l t = true) :
    t.sameAs .pipe = false := by
  cases hp : t.sameAs .pipe
  · rfl
  · obtain rfl := PathToken.eq_of_sameAs hp rfl
    simp [endsLevel, endsOperand, PathToken.sameAs, levelOperator] at h

theorem endsSteps_of_endsPath {t : PathToken} (h : endsLevel 6 t = true ∨ t = .pipe) :
    endsSteps t ∧ startsStep t = false := by
  rcases h with h | rfl
  · cases t <;> simp_all [endsLevel, endsOperand, endsSteps, startsStep, PathToken.sameAs, levelOperator]
  · exact ⟨⟨rfl, rfl, rfl⟩, rfl⟩

theorem Derives.begins_cons {s : Nonterminal} {v : s.Value} {p : PathToken → Bool}
    {pts : Tokens} (h : Derives s (pts.map Prod.fst) v) (hs : Begins s = StartsWith p) :
    ∃ t q pts', pts = (t, q) :: pts' ∧ p t = true := by
  have hb := h.begins
  rw [hs] at hb
  obtain ⟨t, r, heq, ht⟩ := hb
  obtain ⟨q, pts', rfl, -⟩ := map_fst_eq_cons heq
  exact ⟨t, q, pts', rfl, ht⟩

theorem startsStep_of_startsPrimary {t : PathToken} (h : startsPrimary t = true) :
    startsStep t = false := by
  cases t <;> simp_all [startsPrimary, startsStep]

theorem pathExpr_of_startsPrimary {t : PathToken} (ht : startsPrimary t = true) (g q : Nat)
    (ts : Tokens) : (pathExpr (g + 1)).run ((t, q) :: ts) = (filterPath g).run ((t, q) :: ts) := by
  rw [TokenParser.pathExpr]
  simp only [StateT.run_bind, peek_run, ok_bind]
  split
  · simp [startsPrimary] at ht
  · simp [startsPrimary] at ht
  · rw [if_neg (by simp [startsStep_of_startsPrimary ht])]

theorem Reads.stepAfterAxis {c : Nat} (axis : Axis) {ts mid rest : Tokens} {test : NodeTest}
    {ps : List Expr} (h₁ : nodeTest.run ts = .ok (test, mid)) (h₂ : Reads c predicates mid rest ps) :
    Reads (c + 1) (stepAfterAxis · axis) ts rest ⟨axis, test, ps⟩ := by
  intro f hf
  obtain ⟨g, rfl⟩ : ∃ g, f = g + 1 := ⟨f - 1, by omega⟩
  dsimp only
  rw [TokenParser.stepAfterAxis]
  simp only [StateT.run_bind, h₁, ok_bind, h₂ g (by omega)]
  rfl

theorem lt_of_mem_binaryOperators {l : Nat} {t : PathToken} {op : BinaryOp}
    (h : (l, t, op) ∈ binaryOperators) : l < 6 := by
  have levels : ∀ x ∈ binaryOperators, x.1 < 6 := by decide
  exact levels _ h

namespace Complete

section Binary

variable {l : Nat} {a e : Expr}

theorem level {ts us : List PathToken} (hl : l < 6) (d : Derives (.operators l a) us e)
    (h₁ : Complete (.level (l + 1)) ts a) (h₂ : Complete (.operators l a) us e) :
    Complete (.level l) (ts ++ us) e := by
  intro pts t q rest hpts hstop
  obtain ⟨p₁, p₂, rfl, -, r₁, r₂⟩ := ReadsAll.seq h₁ h₂ d.operators_follow q rest hpts hstop
  simp only [List.length_append]
  intro f hf
  obtain ⟨g, rfl⟩ : ∃ g, f = g + 2 := ⟨f - 2, by omega⟩
  rw [levelParser, if_pos hl, binaryLevel]
  simp only [List.append_assoc, StateT.run_bind, operand_succ_eq hl, r₁ g (by omega),
    ok_bind, r₂ (g + 1) (by omega)]

theorem opsNil : Complete (.operators l a) [] a := by
  intro pts t q rest hpts hstop
  obtain rfl := List.map_eq_nil_iff.mp hpts
  intro f hf
  obtain ⟨g, rfl⟩ : ∃ g, f = g + 1 := ⟨f - 1, by omega⟩
  simp only [List.nil_append, binaryRest, StateT.run_bind, peek_run, ok_bind,
    levelOperator_of_endsLevel hstop]
  rfl

theorem opsCons {t₀ : PathToken} {op : BinaryOp} {b : Expr} {us vs : List PathToken}
    (hop : (l, t₀, op) ∈ binaryOperators) (hl : l < 6) (d : Derives (.operators l (.binary op a b)) vs e)
    (h₁ : Complete (.level (l + 1)) us b) (h₂ : Complete (.operators l (.binary op a b)) vs e) :
    Complete (.operators l a) (t₀ :: us ++ vs) e := by
  intro pts t q rest hpts hstop
  obtain ⟨q₀, pts, rfl, hpts'⟩ := map_fst_eq_cons hpts
  obtain ⟨p₁, p₂, rfl, -, r₁, r₂⟩ := ReadsAll.seq h₁ h₂ d.operators_follow q rest hpts' hstop
  simp only [List.length_append, List.length_cons]
  intro f hf
  obtain ⟨g, rfl⟩ : ∃ g, f = g + 2 := ⟨f - 2, by omega⟩
  have hne : p₁ ++ (p₂ ++ (t, q) :: rest) ≠ [] := by simp
  dsimp only
  rw [TokenParser.binaryRest]
  simp only [List.cons_append, List.append_assoc, StateT.run_bind, peek_run, ok_bind,
    levelOperator_eq_some_iff.mpr hop, discard_advance_run _ _ hne, operand_succ_eq hl,
    r₁ g (by omega), r₂ (g + 1) (by omega)]

end Binary

section Union

variable {e : Expr}

theorem unary {ts : List PathToken} (d : Derives .union ts e) (h : Complete .union ts e) :
    Complete (.level 6) ts e := by
  intro pts t q rest hpts hstop
  obtain ⟨t₀, r, rfl, ht₀⟩ := d.begins
  obtain ⟨q₀, pts, rfl, rfl⟩ := map_fst_eq_cons hpts
  have r₁ := Reads.unary (h ((t₀, q₀) :: pts) t q rest rfl hstop) (sameAs_minus_of_startsPath ht₀)
  rw [levelParser_six]
  exact r₁.mono (by simp)

theorem negate {ts : List PathToken} (h : Complete (.level 6) ts e) :
    Complete (.level 6) (.minus :: ts) (.negate e) := by
  intro pts t q rest hpts hstop
  obtain ⟨q₀, pts, rfl, rfl⟩ := map_fst_eq_cons hpts
  have r₁ := h pts t q rest rfl hstop
  rw [levelParser_six] at r₁ ⊢
  simp only [List.length_cons, List.length_map] at r₁ ⊢
  intro f hf
  obtain ⟨g, rfl⟩ : ∃ g, f = g + 1 := ⟨f - 1, by omega⟩
  have hne : pts ++ (t, q) :: rest ≠ [] := by simp
  rw [TokenParser.unary]
  simp only [List.cons_append, StateT.run_bind, nextIs_run, ok_bind,
    show PathToken.minus.sameAs .minus = true from rfl, if_true, discard_advance_run _ _ hne,
    r₁ g (by omega)]
  rfl

theorem union {ts us : List PathToken} {a : Expr} (d : Derives (.unions a) us e)
    (h₁ : Complete .path ts a) (h₂ : Complete (.unions a) us e) : Complete .union (ts ++ us) e := by
  intro pts t q rest hpts hstop
  obtain ⟨p₁, p₂, rfl, -, r₁, r₂⟩ := ReadsAll.seq h₁ h₂ d.unions_follow q rest hpts hstop
  simp only [List.length_append]
  intro f hf
  obtain ⟨g, rfl⟩ : ∃ g, f = g + 1 := ⟨f - 1, by omega⟩
  rw [TokenParser.union]
  simp only [List.append_assoc, StateT.run_bind, r₁ g (by omega), ok_bind, r₂ g (by omega)]

theorem unionsNil {a : Expr} : Complete (.unions a) [] a := by
  intro pts t q rest hpts hstop
  obtain rfl := List.map_eq_nil_iff.mp hpts
  intro f hf
  obtain ⟨g, rfl⟩ : ∃ g, f = g + 1 := ⟨f - 1, by omega⟩
  dsimp only
  rw [TokenParser.unionRest]
  simp only [List.nil_append, StateT.run_bind, nextIs_run, ok_bind,
    sameAs_pipe_of_endsLevel hstop, Bool.false_eq_true, if_false]
  rfl

theorem unionsCons {a b : Expr} {us vs : List PathToken} (d : Derives (.unions (.union a b)) vs e)
    (h₁ : Complete .path us b) (h₂ : Complete (.unions (.union a b)) vs e) :
    Complete (.unions a) (.pipe :: us ++ vs) e := by
  intro pts t q rest hpts hstop
  obtain ⟨q₀, pts, rfl, hpts'⟩ := map_fst_eq_cons hpts
  obtain ⟨p₁, p₂, rfl, -, r₁, r₂⟩ := ReadsAll.seq h₁ h₂ d.unions_follow q rest hpts' hstop
  simp only [List.length_append, List.length_cons]
  intro f hf
  obtain ⟨g, rfl⟩ : ∃ g, f = g + 1 := ⟨f - 1, by omega⟩
  have hne : p₁ ++ (p₂ ++ (t, q) :: rest) ≠ [] := by simp
  dsimp only
  rw [TokenParser.unionRest]
  simp only [List.cons_append, List.append_assoc, StateT.run_bind, nextIs_run, ok_bind,
    show PathToken.pipe.sameAs .pipe = true from rfl, if_true, discard_advance_run _ _ hne,
    r₁ g (by omega), r₂ g (by omega)]

end Union

section Path

variable {ts us : List PathToken} {steps : List (Step Expr)}

theorem root : Complete .path [.slash] (.rootPath []) := by
  intro pts t q rest hpts hstop
  obtain ⟨q₀, pts, rfl, hpts'⟩ := map_fst_eq_cons hpts
  obtain rfl := List.map_eq_nil_iff.mp hpts'
  intro f hf
  obtain ⟨g, rfl⟩ : ∃ g, f = g + 1 := ⟨f - 1, by omega⟩
  rw [TokenParser.pathExpr]
  simp only [List.cons_append, List.nil_append, StateT.run_bind, peek_run, ok_bind,
    discard_advance_run _ _ (List.cons_ne_nil _ _), (endsSteps_of_endsPath hstop).2]
  rfl

theorem rootPath (d : Derives .relativePath ts steps) (h : Complete .relativePath ts steps) :
    Complete .path (.slash :: ts) (.rootPath steps) := by
  intro pts t q rest hpts hstop
  obtain ⟨q₀, pts, rfl, rfl⟩ := map_fst_eq_cons hpts
  obtain ⟨t₀, q₁, pts, rfl, ht₀⟩ := d.begins_cons rfl
  have r₁ := h _ t q rest rfl (endsSteps_of_endsPath hstop).1
  simp only [List.length_cons, List.length_map, List.cons_append] at r₁ ⊢
  intro f hf
  obtain ⟨g, rfl⟩ : ∃ g, f = g + 1 := ⟨f - 1, by omega⟩
  rw [TokenParser.pathExpr]
  simp only [StateT.run_bind, peek_run, ok_bind, discard_advance_run _ _ (List.cons_ne_nil _ _),
    ht₀, if_true, r₁ g (by omega)]
  rfl

theorem rootDescendants (h : Complete .relativePath ts steps) :
    Complete .path (.doubleSlash :: ts) (.rootPath (descendantOrSelfStep :: steps)) := by
  intro pts t q rest hpts hstop
  obtain ⟨q₀, pts, rfl, rfl⟩ := map_fst_eq_cons hpts
  have r₁ := h _ t q rest rfl (endsSteps_of_endsPath hstop).1
  simp only [List.length_cons, List.length_map] at r₁ ⊢
  intro f hf
  obtain ⟨g, rfl⟩ : ∃ g, f = g + 1 := ⟨f - 1, by omega⟩
  have hne : pts ++ (t, q) :: rest ≠ [] := by simp
  rw [TokenParser.pathExpr]
  simp only [List.cons_append, StateT.run_bind, peek_run, ok_bind, discard_advance_run _ _ hne,
    r₁ g (by omega)]
  rfl

theorem relativePath (d : Derives .relativePath ts steps) (h : Complete .relativePath ts steps) :
    Complete .path ts (.relativePath steps) := by
  intro pts t q rest hpts hstop
  subst hpts
  obtain ⟨t₀, q₀, pts, rfl, ht₀⟩ := d.begins_cons rfl
  have r₁ := h _ t q rest rfl (endsSteps_of_endsPath hstop).1
  simp only [List.length_cons, List.length_map, List.cons_append] at r₁ ⊢
  intro f hf
  obtain ⟨g, rfl⟩ : ∃ g, f = g + 1 := ⟨f - 1, by omega⟩
  rw [TokenParser.pathExpr]
  simp only [StateT.run_bind, peek_run, ok_bind]
  split
  · simp [startsStep] at ht₀
  · simp [startsStep] at ht₀
  · simp only [ht₀, if_true, StateT.run_bind, r₁ g (by omega), ok_bind]
    rfl

theorem filter {e : Expr} (d : Derives .filter ts e) (h : Complete .filter ts e) :
    Complete .path ts e := by
  intro pts t q rest hpts hstop
  subst hpts
  obtain ⟨t₀, q₀, pts, rfl, ht₀⟩ := d.begins_cons rfl
  obtain ⟨⟨hslash, hdouble, hbracket⟩, -⟩ := endsSteps_of_endsPath hstop
  obtain ⟨p, ps, mid, rfl, r₁, r₂⟩ := h _ t q rest rfl hbracket
  simp only [List.length_cons, List.length_map, List.cons_append] at r₁ r₂ ⊢
  intro f hf
  obtain ⟨g, rfl⟩ : ∃ g, f = g + 2 := ⟨f - 2, by omega⟩
  rw [pathExpr_of_startsPrimary ht₀, TokenParser.filterPath]
  simp only [StateT.run_bind, r₁ g (by omega), ok_bind, r₂ g (by omega), peek_run]
  split
  · simp [PathToken.sameAs] at hslash
  · simp [PathToken.sameAs] at hdouble
  · rfl

theorem filterPath {e : Expr} (d : Derives .filter ts e) (h₁ : Complete .filter ts e)
    (h₂ : Complete .relativePath us steps) : Complete .path (ts ++ .slash :: us) (.exprPath e steps) := by
  intro pts t q rest hpts hstop
  obtain ⟨p₁, p₂, rfl, hp₁, hp₂⟩ := List.map_eq_append_iff.mp hpts
  obtain ⟨q₁, p₂, rfl, rfl⟩ := map_fst_eq_cons hp₂
  subst hp₁
  obtain ⟨t₀, q₀, p₁, rfl, ht₀⟩ := d.begins_cons rfl
  obtain ⟨p, ps, mid, rfl, r₁, r₂⟩ := h₁ _ .slash q₁ (p₂ ++ (t, q) :: rest) rfl rfl
  have r₃ := h₂ p₂ t q rest rfl (endsSteps_of_endsPath hstop).1
  simp only [List.length_cons, List.length_map, List.length_append, List.cons_append,
    List.append_assoc] at r₁ r₂ r₃ ⊢
  intro f hf
  obtain ⟨g, rfl⟩ : ∃ g, f = g + 2 := ⟨f - 2, by omega⟩
  have hne : p₂ ++ (t, q) :: rest ≠ [] := by simp
  rw [pathExpr_of_startsPrimary ht₀, TokenParser.filterPath]
  simp only [StateT.run_bind, r₁ g (by omega), ok_bind, r₂ g (by omega), peek_run,
    discard_advance_run _ _ hne, r₃ g (by omega)]
  rfl

theorem filterDescendants {e : Expr} (d : Derives .filter ts e) (h₁ : Complete .filter ts e)
    (h₂ : Complete .relativePath us steps) :
    Complete .path (ts ++ .doubleSlash :: us) (.exprPath e (descendantOrSelfStep :: steps)) := by
  intro pts t q rest hpts hstop
  obtain ⟨p₁, p₂, rfl, hp₁, hp₂⟩ := List.map_eq_append_iff.mp hpts
  obtain ⟨q₁, p₂, rfl, rfl⟩ := map_fst_eq_cons hp₂
  subst hp₁
  obtain ⟨t₀, q₀, p₁, rfl, ht₀⟩ := d.begins_cons rfl
  obtain ⟨p, ps, mid, rfl, r₁, r₂⟩ := h₁ _ .doubleSlash q₁ (p₂ ++ (t, q) :: rest) rfl rfl
  have r₃ := h₂ p₂ t q rest rfl (endsSteps_of_endsPath hstop).1
  simp only [List.length_cons, List.length_map, List.length_append, List.cons_append,
    List.append_assoc] at r₁ r₂ r₃ ⊢
  intro f hf
  obtain ⟨g, rfl⟩ : ∃ g, f = g + 2 := ⟨f - 2, by omega⟩
  have hne : p₂ ++ (t, q) :: rest ≠ [] := by simp
  rw [pathExpr_of_startsPrimary ht₀, TokenParser.filterPath]
  simp only [StateT.run_bind, r₁ g (by omega), ok_bind, r₂ g (by omega), peek_run,
    discard_advance_run _ _ hne, r₃ g (by omega)]
  rfl

end Path

section Primary

variable {ts us : List PathToken} {e : Expr}

theorem primary (h : Complete .primary ts e) : Complete .filter ts e := by
  intro pts t q rest hpts hstop
  refine ⟨e, [], (t, q) :: rest, (if_pos rfl).symm, h pts t q rest hpts trivial, ?_⟩
  intro f hf
  obtain ⟨g, rfl⟩ : ∃ g, f = g + 1 := ⟨f - 1, by omega⟩
  exact predicates_none hstop g

theorem filtered {p : Expr} {ps : List Expr} (h₁ : Complete .primary ts e)
    (h₂ : Complete .predicates us (p :: ps)) :
    Complete .filter (ts ++ us) (.filter e (p :: ps)) := by
  intro pts t q rest hpts hstop
  obtain ⟨p₁, p₂, rfl, -, r₁, r₂⟩ := ReadsAll.seq h₁ h₂ (fun _ => trivial) q rest hpts hstop
  have hlen : (ts ++ us).length = ts.length + us.length := List.length_append
  refine ⟨e, p :: ps, p₂ ++ (t, q) :: rest, rfl, ?_, r₂.mono (by omega)⟩
  rw [List.append_assoc]
  exact r₁.mono (by omega)

theorem var (n : String) : Complete .primary [.variable n] (.variable n) := by
  intro pts t q rest hpts _
  obtain ⟨q₀, pts, rfl, hpts'⟩ := map_fst_eq_cons hpts
  obtain rfl := List.map_eq_nil_iff.mp hpts'
  intro f hf
  obtain ⟨g, rfl⟩ : ∃ g, f = g + 1 := ⟨f - 1, by omega⟩
  rw [TokenParser.primaryExpr]
  simp only [List.cons_append, List.nil_append, StateT.run_bind, offset_run, ok_bind,
    advance_run _ _ (List.cons_ne_nil _ _)]
  rfl

theorem lit (s : String) : Complete .primary [.literal s] (.literal s) := by
  intro pts t q rest hpts _
  obtain ⟨q₀, pts, rfl, hpts'⟩ := map_fst_eq_cons hpts
  obtain rfl := List.map_eq_nil_iff.mp hpts'
  simp only [List.cons_append, List.nil_append]
  exact (Reads.literal (p := q₀) s (List.cons_ne_nil (t, q) rest)).mono (by simp)

theorem num (v : Float) : Complete .primary [.number v] (.number v) := by
  intro pts t q rest hpts _
  obtain ⟨q₀, pts, rfl, hpts'⟩ := map_fst_eq_cons hpts
  obtain rfl := List.map_eq_nil_iff.mp hpts'
  simp only [List.cons_append, List.nil_append]
  exact (Reads.number (p := q₀) v (List.cons_ne_nil (t, q) rest)).mono (by simp)

theorem parens (h : Complete (.level 0) ts e) :
    Complete .primary (.leftParen :: ts ++ [.rightParen]) e := by
  intro pts t q rest hpts _
  obtain ⟨q₀, pts, rfl, hpts'⟩ := map_fst_eq_cons hpts
  obtain ⟨p₁, p₂, rfl, rfl, hp₂⟩ := List.map_eq_append_iff.mp hpts'
  obtain ⟨q₁, p₂, rfl, hp₂'⟩ := map_fst_eq_cons hp₂
  obtain rfl := List.map_eq_nil_iff.mp hp₂'
  have r₁ := h p₁ .rightParen q₁ ((t, q) :: rest) rfl rfl
  simp only [List.length_cons, List.length_map, List.length_append, List.length_nil,
    List.cons_append, List.append_assoc, List.nil_append] at r₁ ⊢
  intro f hf
  obtain ⟨g, rfl⟩ : ∃ g, f = g + 2 := ⟨f - 2, by omega⟩
  have hne : p₁ ++ (.rightParen, q₁) :: (t, q) :: rest ≠ [] := by simp
  rw [TokenParser.primaryExpr]
  simp only [StateT.run_bind, offset_run, ok_bind, advance_run _ _ hne, expr_succ_eq,
    r₁ g (by omega), expect_run .rightParen q₁ (show PathToken.rightParen.sameAs .rightParen = true from rfl) (List.cons_ne_nil _ _)]
  rfl

theorem call (n : String) :
    Complete .primary [.functionName n, .leftParen, .rightParen] (.call n []) := by
  intro pts t q rest hpts _
  obtain ⟨q₀, pts, rfl, h₁⟩ := map_fst_eq_cons hpts
  obtain ⟨q₁, pts, rfl, h₂⟩ := map_fst_eq_cons h₁
  obtain ⟨q₂, pts, rfl, h₃⟩ := map_fst_eq_cons h₂
  obtain rfl := List.map_eq_nil_iff.mp h₃
  intro f hf
  obtain ⟨g, rfl⟩ : ∃ g, f = g + 1 := ⟨f - 1, by omega⟩
  rw [TokenParser.primaryExpr]
  simp only [List.cons_append, List.nil_append, StateT.run_bind, offset_run, ok_bind,
    advance_run _ _ (List.cons_ne_nil _ _), expect_run .leftParen q₁ (show PathToken.leftParen.sameAs .leftParen = true from rfl) (List.cons_ne_nil _ _),
    nextIs_run, show PathToken.rightParen.sameAs .rightParen = true from rfl, if_true, pure_bind,
    expect_run .rightParen q₂ (show PathToken.rightParen.sameAs .rightParen = true from rfl) (List.cons_ne_nil _ _)]
  rfl

theorem callArgs {n : String} {es : List Expr} (d : Derives .args ts es) (h : Complete .args ts es) :
    Complete .primary (.functionName n :: .leftParen :: ts ++ [.rightParen]) (.call n es) := by
  intro pts t q rest hpts _
  obtain ⟨q₀, pts, rfl, h₁⟩ := map_fst_eq_cons hpts
  obtain ⟨q₁, pts, rfl, h₂⟩ := map_fst_eq_cons h₁
  obtain ⟨p₁, p₂, rfl, hp₁, hp₂⟩ := List.map_eq_append_iff.mp h₂
  obtain ⟨q₂, p₂, rfl, hp₂'⟩ := map_fst_eq_cons hp₂
  obtain rfl := List.map_eq_nil_iff.mp hp₂'
  subst hp₁
  obtain ⟨t₀, q₃, p₁, rfl, ht₀⟩ := d.begins_cons rfl
  have r₁ := h _ .rightParen q₂ ((t, q) :: rest) rfl ⟨rfl, rfl⟩
  simp only [List.length_cons, List.length_map, List.length_append, List.length_nil,
    List.cons_append, List.append_assoc, List.nil_append] at r₁ ⊢
  intro f hf
  obtain ⟨g, rfl⟩ : ∃ g, f = g + 2 := ⟨f - 2, by omega⟩
  have hparen : t₀.sameAs .rightParen = false := by
    cases t₀ <;> simp_all [startsExpr, startsPath, startsStep, startsPrimary, PathToken.sameAs]
  rw [TokenParser.primaryExpr]
  simp only [StateT.run_bind, offset_run, ok_bind, advance_run _ _ (List.cons_ne_nil _ _),
    expect_run .leftParen q₁ (show PathToken.leftParen.sameAs .leftParen = true from rfl) (List.cons_ne_nil _ _), nextIs_run, hparen, Bool.false_eq_true,
    if_false, r₁ (g + 1) (by omega), expect_run .rightParen q₂ (show PathToken.rightParen.sameAs .rightParen = true from rfl) (List.cons_ne_nil _ _)]
  rfl

theorem arg (h : Complete (.level 0) ts e) : Complete .args ts [e] := by
  intro pts t q rest hpts hstop
  have r₁ := h pts t q rest hpts hstop.1
  intro f hf
  obtain ⟨g, rfl⟩ : ∃ g, f = g + 2 := ⟨f - 2, by omega⟩
  rw [TokenParser.arguments]
  simp only [StateT.run_bind, expr_succ_eq, r₁ g (by omega), ok_bind, nextIs_run, hstop.2,
    Bool.false_eq_true, if_false]
  rfl

theorem argsCons {es : List Expr} (h₁ : Complete (.level 0) ts e) (h₂ : Complete .args us es) :
    Complete .args (ts ++ .comma :: us) (e :: es) := by
  intro pts t q rest hpts hstop
  obtain ⟨p₁, p₂, rfl, rfl, hp₂⟩ := List.map_eq_append_iff.mp hpts
  obtain ⟨q₁, p₂, rfl, rfl⟩ := map_fst_eq_cons hp₂
  have r₁ := h₁ p₁ .comma q₁ (p₂ ++ (t, q) :: rest) rfl rfl
  have r₂ := h₂ p₂ t q rest rfl hstop
  simp only [List.length_cons, List.length_map, List.length_append, List.cons_append,
    List.append_assoc] at r₁ r₂ ⊢
  intro f hf
  obtain ⟨g, rfl⟩ : ∃ g, f = g + 2 := ⟨f - 2, by omega⟩
  have hne : p₂ ++ (t, q) :: rest ≠ [] := by simp
  rw [TokenParser.arguments]
  simp only [StateT.run_bind, expr_succ_eq, r₁ g (by omega), ok_bind, nextIs_run,
    show PathToken.comma.sameAs .comma = true from rfl, if_true, discard_advance_run _ _ hne,
    r₂ (g + 1) (by omega)]
  rfl

theorem predsNil : Complete .predicates [] [] := by
  intro pts t q rest hpts hstop
  obtain rfl := List.map_eq_nil_iff.mp hpts
  intro f hf
  obtain ⟨g, rfl⟩ : ∃ g, f = g + 1 := ⟨f - 1, by omega⟩
  exact predicates_none hstop g

theorem predsCons {es : List Expr} (h₁ : Complete (.level 0) ts e) (h₂ : Complete .predicates us es) :
    Complete .predicates (.leftBracket :: ts ++ .rightBracket :: us) (e :: es) := by
  intro pts t q rest hpts hstop
  obtain ⟨q₀, pts, rfl, hpts'⟩ := map_fst_eq_cons hpts
  obtain ⟨p₁, p₂, rfl, rfl, hp₂⟩ := List.map_eq_append_iff.mp hpts'
  obtain ⟨q₁, p₂, rfl, rfl⟩ := map_fst_eq_cons hp₂
  have r₁ := h₁ p₁ .rightBracket q₁ (p₂ ++ (t, q) :: rest) rfl rfl
  have r₂ := h₂ p₂ t q rest rfl hstop
  simp only [List.length_cons, List.length_map, List.length_append, List.cons_append,
    List.append_assoc] at r₁ r₂ ⊢
  intro f hf
  obtain ⟨g, rfl⟩ : ∃ g, f = g + 2 := ⟨f - 2, by omega⟩
  have hne : p₁ ++ (.rightBracket, q₁) :: (p₂ ++ (t, q) :: rest) ≠ [] := by simp
  have hne' : p₂ ++ (t, q) :: rest ≠ [] := by simp
  rw [TokenParser.predicates]
  simp only [StateT.run_bind, nextIs_run, ok_bind,
    show PathToken.leftBracket.sameAs .leftBracket = true from rfl, if_true,
    expect_run .leftBracket q₀ (show PathToken.leftBracket.sameAs .leftBracket = true from rfl) hne, expr_succ_eq, r₁ g (by omega),
    expect_run .rightBracket q₁ (show PathToken.rightBracket.sameAs .rightBracket = true from rfl) hne', r₂ (g + 1) (by omega)]
  rfl

end Primary

section Steps

variable {ts us : List PathToken} {s : Step Expr} {ss : List (Step Expr)}

theorem steps (d : Derives .moreSteps us ss) (h₁ : Complete .step ts s)
    (h₂ : Complete .moreSteps us ss) : Complete .relativePath (ts ++ us) (s :: ss) := by
  intro pts t q rest hpts hstop
  obtain ⟨p₁, p₂, rfl, -, r₁, r₂⟩ := ReadsAll.seq h₁ h₂ d.moreSteps_follow q rest hpts hstop
  simp only [List.length_append, List.append_assoc]
  exact Reads.relativePath (c := 32 * (ts.length + us.length) + 3) (r₁.mono (by omega))
    (r₂.mono (by omega))

theorem stepsNil : Complete .moreSteps [] [] := by
  intro pts t q rest hpts hstop
  obtain rfl := List.map_eq_nil_iff.mp hpts
  intro f hf
  obtain ⟨g, rfl⟩ : ∃ g, f = g + 1 := ⟨f - 1, by omega⟩
  rw [TokenParser.stepsRest]
  simp only [List.nil_append, StateT.run_bind, peek_run, ok_bind]
  split
  · simp [PathToken.sameAs, endsSteps] at hstop
  · simp [PathToken.sameAs, endsSteps] at hstop
  · rfl

theorem slashStep (d : Derives .moreSteps us ss) (h₁ : Complete .step ts s)
    (h₂ : Complete .moreSteps us ss) : Complete .moreSteps (.slash :: ts ++ us) (s :: ss) := by
  intro pts t q rest hpts hstop
  obtain ⟨q₀, pts, rfl, hpts'⟩ := map_fst_eq_cons hpts
  obtain ⟨p₁, p₂, rfl, -, r₁, r₂⟩ := ReadsAll.seq h₁ h₂ d.moreSteps_follow q rest hpts' hstop
  simp only [List.length_append, List.length_cons, List.cons_append, List.append_assoc]
  exact (Reads.stepsRest (c := 32 * (ts.length + us.length) + 3) (r₁.mono (by omega))
    (r₂.mono (by omega)) (by simp)).mono (by omega)

theorem doubleSlashStep (d : Derives .moreSteps us ss) (h₁ : Complete .step ts s)
    (h₂ : Complete .moreSteps us ss) :
    Complete .moreSteps (.doubleSlash :: ts ++ us) (descendantOrSelfStep :: s :: ss) := by
  intro pts t q rest hpts hstop
  obtain ⟨q₀, pts, rfl, hpts'⟩ := map_fst_eq_cons hpts
  obtain ⟨p₁, p₂, rfl, -, r₁, r₂⟩ := ReadsAll.seq h₁ h₂ d.moreSteps_follow q rest hpts' hstop
  simp only [List.length_append, List.length_cons, List.cons_append, List.append_assoc]
  intro f hf
  obtain ⟨g, rfl⟩ : ∃ g, f = g + 1 := ⟨f - 1, by omega⟩
  have hne : p₁ ++ (p₂ ++ (t, q) :: rest) ≠ [] := by simp
  rw [TokenParser.stepsRest]
  simp only [StateT.run_bind, peek_run, ok_bind, discard_advance_run _ _ hne, r₁ g (by omega),
    r₂ g (by omega)]
  rfl

theorem self : Complete .step [.dot] ⟨.selfAxis, .node, []⟩ := by
  intro pts t q rest hpts _
  obtain ⟨q₀, pts, rfl, hpts'⟩ := map_fst_eq_cons hpts
  obtain rfl := List.map_eq_nil_iff.mp hpts'
  intro f hf
  obtain ⟨g, rfl⟩ : ∃ g, f = g + 1 := ⟨f - 1, by omega⟩
  rfl

theorem parent : Complete .step [.doubleDot] ⟨.parent, .node, []⟩ := by
  intro pts t q rest hpts _
  obtain ⟨q₀, pts, rfl, hpts'⟩ := map_fst_eq_cons hpts
  obtain rfl := List.map_eq_nil_iff.mp hpts'
  intro f hf
  obtain ⟨g, rfl⟩ : ∃ g, f = g + 1 := ⟨f - 1, by omega⟩
  rfl

theorem attributeStep {test : NodeTest} {ps : List Expr} (h₁ : Complete .nodeTest ts test)
    (h₂ : Complete .predicates us ps) :
    Complete .step (.atSign :: ts ++ us) ⟨.attribute, test, ps⟩ := by
  intro pts t q rest hpts hstop
  obtain ⟨q₀, pts, rfl, hpts'⟩ := map_fst_eq_cons hpts
  obtain ⟨p₁, p₂, rfl, -, r₁, r₂⟩ := ReadsAll.seq h₁ h₂ (fun _ => trivial) q rest hpts' hstop
  have r₃ := Reads.stepAfterAxis .attribute (r₁ 0 le_rfl) r₂
  simp only [List.length_append, List.length_cons, List.cons_append, List.append_assoc]
  intro f hf
  obtain ⟨g, rfl⟩ : ∃ g, f = g + 1 := ⟨f - 1, by omega⟩
  have hne : p₁ ++ (p₂ ++ (t, q) :: rest) ≠ [] := by simp
  rw [TokenParser.step]
  simp only [StateT.run_bind, peek_run, ok_bind, discard_advance_run _ _ hne]
  exact r₃ g (by omega)

theorem axisStep {n : String} {a : Axis} {test : NodeTest} {ps : List Expr}
    (ha : (n, a) ∈ axisNames) (h₁ : Complete .nodeTest ts test) (h₂ : Complete .predicates us ps) :
    Complete .step (.axisName n :: .doubleColon :: ts ++ us) ⟨a, test, ps⟩ := by
  intro pts t q rest hpts hstop
  obtain ⟨q₀, pts, rfl, h₀⟩ := map_fst_eq_cons hpts
  obtain ⟨q₁, pts, rfl, h₀'⟩ := map_fst_eq_cons h₀
  obtain ⟨p₁, p₂, rfl, -, r₁, r₂⟩ := ReadsAll.seq h₁ h₂ (fun _ => trivial) q rest h₀' hstop
  have r₃ := Reads.stepAfterAxis a (r₁ 0 le_rfl) r₂
  simp only [List.length_append, List.length_cons, List.cons_append, List.append_assoc]
  intro f hf
  obtain ⟨g, rfl⟩ : ∃ g, f = g + 1 := ⟨f - 1, by omega⟩
  have hne : p₁ ++ (p₂ ++ (t, q) :: rest) ≠ [] := by simp
  rw [TokenParser.step]
  simp only [StateT.run_bind, peek_run, offset_run, ok_bind,
    discard_advance_run _ _ (List.cons_ne_nil _ _), Axis.ofName?_eq_some_iff.mpr ha,
    expect_run .doubleColon q₁ (show PathToken.doubleColon.sameAs .doubleColon = true from rfl) hne]
  exact r₃ g (by omega)

theorem childStep {test : NodeTest} {ps : List Expr} (d : Derives .nodeTest ts test)
    (h₁ : Complete .nodeTest ts test) (h₂ : Complete .predicates us ps) :
    Complete .step (ts ++ us) ⟨.child, test, ps⟩ := by
  intro pts t q rest hpts hstop
  obtain ⟨p₁, p₂, rfl, hp₁, r₁, r₂⟩ := ReadsAll.seq h₁ h₂ (fun _ => trivial) q rest hpts hstop
  subst hp₁
  obtain ⟨t₀, q₀, p₁, rfl, ht₀⟩ := d.begins_cons rfl
  have r₃ := Reads.stepAfterAxis .child (r₁ 0 le_rfl) r₂
  simp only [List.length_append, List.length_map, List.length_cons, List.cons_append,
    List.append_assoc] at r₃ ⊢
  intro f hf
  obtain ⟨g, rfl⟩ : ∃ g, f = g + 1 := ⟨f - 1, by omega⟩
  rw [TokenParser.step]
  simp only [StateT.run_bind, peek_run, ok_bind]
  split
  · simp [startsNodeTest] at ht₀
  · simp [startsNodeTest] at ht₀
  · simp [startsNodeTest] at ht₀
  · simp [startsNodeTest] at ht₀
  · exact r₃ g (by omega)

theorem nameTest (a b : Option String) : Complete .nodeTest [.nameTest a b] (nameNodeTest a b) := by
  intro pts t q rest hpts _
  obtain ⟨q₀, pts, rfl, hpts'⟩ := map_fst_eq_cons hpts
  obtain rfl := List.map_eq_nil_iff.mp hpts'
  intro f _
  rfl

theorem node : Complete .nodeTest [.nodeType "node", .leftParen, .rightParen] .node := by
  intro pts t q rest hpts _
  simp only [List.map_eq_cons_iff, List.map_eq_nil_iff] at hpts
  obtain ⟨⟨_, q₀⟩, _, rfl, rfl, ⟨_, q₁⟩, _, rfl, rfl, ⟨_, q₂⟩, _, rfl, rfl, rfl⟩ := hpts
  intro f _
  rfl

theorem text : Complete .nodeTest [.nodeType "text", .leftParen, .rightParen] .text := by
  intro pts t q rest hpts _
  simp only [List.map_eq_cons_iff, List.map_eq_nil_iff] at hpts
  obtain ⟨⟨_, q₀⟩, _, rfl, rfl, ⟨_, q₁⟩, _, rfl, rfl, ⟨_, q₂⟩, _, rfl, rfl, rfl⟩ := hpts
  intro f _
  rfl

theorem comment : Complete .nodeTest [.nodeType "comment", .leftParen, .rightParen] .comment := by
  intro pts t q rest hpts _
  simp only [List.map_eq_cons_iff, List.map_eq_nil_iff] at hpts
  obtain ⟨⟨_, q₀⟩, _, rfl, rfl, ⟨_, q₁⟩, _, rfl, rfl, ⟨_, q₂⟩, _, rfl, rfl, rfl⟩ := hpts
  intro f _
  rfl

theorem instruction :
    Complete .nodeTest [.nodeType "processing-instruction", .leftParen, .rightParen]
      (.instruction none) := by
  intro pts t q rest hpts _
  simp only [List.map_eq_cons_iff, List.map_eq_nil_iff] at hpts
  obtain ⟨⟨_, q₀⟩, _, rfl, rfl, ⟨_, q₁⟩, _, rfl, rfl, ⟨_, q₂⟩, _, rfl, rfl, rfl⟩ := hpts
  intro f _
  rfl

theorem instructionTarget (target : String) :
    Complete .nodeTest [.nodeType "processing-instruction", .leftParen, .literal target, .rightParen]
      (.instruction (some target)) := by
  intro pts t q rest hpts _
  simp only [List.map_eq_cons_iff, List.map_eq_nil_iff] at hpts
  obtain ⟨⟨_, q₀⟩, _, rfl, rfl, ⟨_, q₁⟩, _, rfl, rfl, ⟨_, q₂⟩, _, rfl, rfl, ⟨_, q₃⟩, _, rfl, rfl,
    rfl⟩ := hpts
  intro f _
  rfl

end Steps

end Complete

/-- Every derivation is read by the parser function of its nonterminal. -/
theorem Derives.complete {s : Nonterminal} {ts : List PathToken} {v : s.Value}
    (h : Derives s ts v) : Complete s ts v := by
  induction h with
  | level hl _ d ih₁ ih₂ => exact .level hl d ih₁ ih₂
  | opsNil => exact .opsNil
  | opsCons hop _ d ih₁ ih₂ => exact .opsCons hop (lt_of_mem_binaryOperators hop) d ih₁ ih₂
  | unary d ih => exact .unary d ih
  | negate _ ih => exact .negate ih
  | union _ d ih₁ ih₂ => exact .union d ih₁ ih₂
  | unionsNil => exact .unionsNil
  | unionsCons _ d ih₁ ih₂ => exact .unionsCons d ih₁ ih₂
  | root => exact .root
  | rootPath d ih => exact .rootPath d ih
  | rootDescendants _ ih => exact .rootDescendants ih
  | relativePath d ih => exact .relativePath d ih
  | filter d ih => exact .filter d ih
  | filterPath d _ ih₁ ih₂ => exact .filterPath d ih₁ ih₂
  | filterDescendants d _ ih₁ ih₂ => exact .filterDescendants d ih₁ ih₂
  | primary _ ih => exact .primary ih
  | filtered _ _ ih₁ ih₂ => exact .filtered ih₁ ih₂
  | var n => exact .var n
  | lit s => exact .lit s
  | num v => exact .num v
  | parens _ ih => exact .parens ih
  | call n => exact .call n
  | callArgs d ih => exact .callArgs d ih
  | arg _ ih => exact .arg ih
  | argsCons _ _ ih₁ ih₂ => exact .argsCons ih₁ ih₂
  | predsNil => exact .predsNil
  | predsCons _ _ ih₁ ih₂ => exact .predsCons ih₁ ih₂
  | steps _ d ih₁ ih₂ => exact .steps d ih₁ ih₂
  | stepsNil => exact .stepsNil
  | slashStep _ d ih₁ ih₂ => exact .slashStep d ih₁ ih₂
  | doubleSlashStep _ d ih₁ ih₂ => exact .doubleSlashStep d ih₁ ih₂
  | self => exact .self
  | parent => exact .parent
  | attributeStep _ _ ih₁ ih₂ => exact .attributeStep ih₁ ih₂
  | axisStep ha _ _ ih₁ ih₂ => exact .axisStep ha ih₁ ih₂
  | childStep d _ ih₁ ih₂ => exact .childStep d ih₁ ih₂
  | any => exact .nameTest none none
  | name l => exact .nameTest none (some l)
  | anyIn p => exact .nameTest (some p) none
  | qualified p l => exact .nameTest (some p) (some l)
  | node => exact .node
  | text => exact .text
  | comment => exact .comment
  | instruction => exact .instruction
  | instructionTarget s => exact .instructionTarget s

theorem parse_of_derives {s : String} {ts : Tokens} {p : Nat} {e : Expr}
    (htok : tokenize s = .ok (ts ++ [(.eof, p)])) (h : Derives (.level 0) (ts.map Prod.fst) e) :
    parse s = .ok e := by
  have r := h.complete ts .eof p [] rfl rfl
  have hexpr : Reads (32 * ts.length + 20) TokenParser.expr (ts ++ [(.eof, p)]) [(.eof, p)] e := by
    intro f hf
    obtain ⟨g, rfl⟩ : ∃ g, f = g + 1 := ⟨f - 1, by omega⟩
    rw [expr_succ_eq]
    exact r g (by simp only [List.length_map]; omega)
  exact parse_of_reads htok hexpr (by simp; omega)

/-- `parse` accepts a text exactly when the kinds of its tokens before `eof` derive an
expression of the grammar, and it returns the tree of that derivation. -/
theorem parse_eq_ok_iff (s : String) (e : Expr) :
    parse s = .ok e ↔
      ∃ ts p, tokenize s = .ok (ts ++ [(.eof, p)]) ∧ Derives (.level 0) (ts.map Prod.fst) e :=
  ⟨parse_derives, fun ⟨_, _, htok, h⟩ => parse_of_derives htok h⟩

end XmlPointer.Path
