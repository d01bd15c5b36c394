import Mathlib
import XmlPointer.Proofs.PathGrammar

/-! # The expression parser reads only what the grammar derives

Run on tokens as the lexer gives them, every function of the parser that succeeds has read a
prefix of them whose kinds derive, in the grammar of `Derives`, the tree it returns
(`Yields`), and it leaves tokens as the lexer gives them. The proof goes by the depth bound: at
bound `f + 1` each function calls the others at bound `f`, so one step proves the whole bundle
`Sound (f + 1)` from `Sound f`. -/
namespace XmlPointer.Path

open TokenParser

/-- The tokens that carry nothing but their kind. -/
def PathToken.bare : PathToken → Bool
  | .number _ | .literal _ | .variable _ | .nameTest _ _ | .functionName _ | .nodeType _
  | .axisName _ => false
  | _ => true

theorem PathToken.eq_of_sameAs {t k : PathToken} (h : t.sameAs k = true) (hk : k.bare = true) :
    t = k := by
  cases k <;> simp only [PathToken.bare] at hk <;> cases t <;> simp_all [PathToken.sameAs]

section Reading

variable {α β : Type}

theorem run_bind_ok {x : TokenParser α} {g : α → TokenParser β} {ts rest : Tokens} {b : β}
    (h : (x >>= g).run ts = .ok (b, rest)) :
    ∃ a mid, x.run ts = .ok (a, mid) ∧ (g a).run mid = .ok (b, rest) := by
  rw [StateT.run_bind] at h
  rcases hx : x.run ts with e | ⟨a, mid⟩
  · rw [hx] at h
    cases h
  · rw [hx] at h
    exact ⟨a, mid, rfl, h⟩

theorem run_pure_ok {a b : α} {ts rest : Tokens} (h : (pure a : TokenParser α).run ts = .ok (b, rest)) :
    b = a ∧ rest = ts := by
  cases h
  exact ⟨rfl, rfl⟩

theorem Lexed.exists_cons {ts : Tokens} (h : Lexed ts) : ∃ t q ts', ts = (t, q) :: ts' := by
  obtain ⟨⟨t, q⟩, ts', rfl⟩ := List.exists_cons_of_ne_nil h.ne_nil
  exact ⟨t, q, ts', rfl⟩

theorem Lexed.advance {t : PathToken} {q : Nat} {ts : Tokens} (h : Lexed ((t, q) :: ts))
    (ht : t ≠ .eof) : (discard advance).run ((t, q) :: ts) = .ok ((), ts) ∧ Lexed ts :=
  ⟨discard_advance_run t q (h.tail ht).ne_nil, h.tail ht⟩

theorem Lexed.advance_bind {t : PathToken} {q : Nat} {ts : Tokens} (h : Lexed ((t, q) :: ts))
    (ht : t ≠ .eof) (g : Unit → TokenParser α) :
    (discard TokenParser.advance >>= g).run ((t, q) :: ts) = (g ()).run ts := by
  rw [StateT.run_bind, (h.advance ht).1, ok_bind]

section Lookahead

variable {t : PathToken} {q : Nat} {ts : Tokens}

theorem peek_bind_run (k : PathToken → TokenParser α) :
    (peek >>= k).run ((t, q) :: ts) = (k t).run ((t, q) :: ts) := by
  rw [StateT.run_bind, peek_run, ok_bind]

theorem nextIs_bind_run (t' : PathToken) (k : Bool → TokenParser α) :
    (nextIs t' >>= k).run ((t, q) :: ts) = (k (t.sameAs t')).run ((t, q) :: ts) := by
  rw [StateT.run_bind, nextIs_run, ok_bind]

theorem offset_bind_run (k : Nat → TokenParser α) :
    (offset >>= k).run ((t, q) :: ts) = (k q).run ((t, q) :: ts) := by
  rw [StateT.run_bind, offset_run, ok_bind]

end Lookahead

/-- Run on lexed tokens, the parser `p` leaves lexed tokens, and the kinds of the tokens it read
derive its value by `G`. -/
def Yields (p : TokenParser α) (G : List PathToken → α → Prop) : Prop :=
  ∀ ⦃ts rest : Tokens⦄ ⦃a : α⦄, Lexed ts → p.run ts = .ok (a, rest) →
    Lexed rest ∧ ∃ pre, ts = pre ++ rest ∧ G (pre.map Prod.fst) a

theorem Yields.imp {G H : List PathToken → α → Prop} {p : TokenParser α} (h : Yields p G)
    (hGH : ∀ ts a, G ts a → H ts a) : Yields p H := by
  intro ts rest a hts hp
  obtain ⟨hrest, pre, hpre, hG⟩ := h hts hp
  exact ⟨hrest, pre, hpre, hGH _ _ hG⟩

theorem Yields.bind {G : List PathToken → α → Prop} {H : α → List PathToken → β → Prop}
    {x : TokenParser α} {g : α → TokenParser β} (hx : Yields x G) (hg : ∀ a, Yields (g a) (H a)) :
    Yields (x >>= g) (fun ts b => ∃ us vs a, ts = us ++ vs ∧ G us a ∧ H a vs b) := by
  intro ts rest b hts h
  obtain ⟨a, mid, h₁, h₂⟩ := run_bind_ok h
  obtain ⟨hmid, pre₁, rfl, hG⟩ := hx hts h₁
  obtain ⟨hrest, pre₂, rfl, hH⟩ := hg a hmid h₂
  exact ⟨hrest, pre₁ ++ pre₂, (List.append_assoc _ _ _).symm, _, _, a, List.map_append, hG, hH⟩

theorem Yields.map {G : List PathToken → α → Prop} {x : TokenParser α} (hx : Yields x G)
    (F : α → β) : Yields (x >>= fun a => pure (F a)) (fun ts b => ∃ a, G ts a ∧ b = F a) := by
  intro ts rest b hts h
  obtain ⟨a, mid, h₁, h₂⟩ := run_bind_ok h
  obtain ⟨rfl, rfl⟩ := run_pure_ok h₂
  obtain ⟨hmid, pre, rfl, hG⟩ := hx hts h₁
  exact ⟨hmid, pre, rfl, a, hG, rfl⟩

theorem Yields.exhausted {G : List PathToken → α → Prop} : Yields exhausted G := by
  intro ts rest a _ h
  cases ts with
  | nil => cases h
  | cons x xs => cases h

theorem Yields.expect {k : PathToken} (hk : k.bare = true) (hke : k ≠ .eof) :
    Yields (expect k) (fun ts _ => ts = [k]) := by
  intro ts rest a hts h
  obtain ⟨t, q, ts, rfl⟩ := hts.exists_cons
  simp only [TokenParser.expect, StateT.run_bind, nextIs_run, ok_bind] at h
  split at h
  · rename_i hsame
    obtain rfl := PathToken.eq_of_sameAs hsame hk
    obtain ⟨hadv, hts'⟩ := hts.advance hke
    rw [hadv] at h
    cases h
    exact ⟨hts', [(t, q)], rfl, rfl⟩
  · cases h

theorem Yields.expect_bind {k : PathToken} (hk : k.bare = true) (hke : k ≠ .eof) {g : TokenParser α}
    {G : List PathToken → α → Prop} (hg : Yields g G) :
    Yields (TokenParser.expect k >>= fun _ => g) (fun ts a => ∃ us, ts = k :: us ∧ G us a) := by
  refine ((Yields.expect hk hke).bind fun _ => hg).imp ?_
  rintro _ a ⟨_, us, _, rfl, rfl, hG⟩
  exact ⟨us, rfl, hG⟩

theorem Yields.pure (a : α) : Yields (pure a) (fun ts b => ts = [] ∧ b = a) := by
  intro ts rest b hts h
  obtain ⟨rfl, rfl⟩ := run_pure_ok h
  exact ⟨hts, [], rfl, rfl, rfl⟩

theorem Lexed.advance_yields {t : PathToken} {q : Nat} {ts rest : Tokens} {a : α}
    {g : Unit → TokenParser α} {G : List PathToken → α → Prop} (hts : Lexed ((t, q) :: ts))
    (ht : t ≠ .eof) (h : (discard TokenParser.advance >>= g).run ((t, q) :: ts) = .ok (a, rest))
    (hg : Yields (g ()) G) : Lexed rest ∧ ∃ pre, ts = pre ++ rest ∧ G (pre.map Prod.fst) a := by
  rw [hts.advance_bind ht] at h
  exact hg (hts.tail ht) h

end Reading

/-- What `stepAfterAxis` reads along an axis: a node test and its predicates. -/
def AlongAxis (axis : Axis) (ts : List PathToken) (s : Step Expr) : Prop :=
  ∃ us vs test ps, ts = us ++ vs ∧ Derives .nodeTest us test ∧ Derives .predicates vs ps ∧
    s = ⟨axis, test, ps⟩

theorem Derives.filterOf {ts us : List PathToken} {e : Expr} {ps : List Expr}
    (d₁ : Derives .primary ts e) (d₂ : Derives .predicates us ps) :
    Derives .filter (ts ++ us) (if ps.isEmpty then e else .filter e ps) := by
  cases ps with
  | nil =>
    cases d₂
    simpa using Derives.primary d₁
  | cons p ps => exact .filtered d₁ d₂

theorem levelOperator_eof (l : Nat) : levelOperator l .eof = none := by
  unfold levelOperator
  split <;> simp_all

theorem nodeTest_yields : Yields nodeTest (Derives .nodeTest) := by
  intro ts rest test hts h
  obtain ⟨t, q, ts, rfl⟩ := hts.exists_cons
  simp only [nodeTest, StateT.run_bind, offset_run, ok_bind] at h
  by_cases ht : t = .eof
  · subst ht
    rw [hts.eof_last] at h
    cases h
  have hts' := hts.tail ht
  simp only [advance_run _ _ hts'.ne_nil, ok_bind] at h
  split at h
  · obtain ⟨rfl, rfl⟩ := run_pure_ok h
    refine ⟨hts', [(_, q)], rfl, ?_⟩
    rename_i p l
    cases p <;> cases l
    exacts [.any, .name _, .anyIn _, .qualified _ _]
  · rename_i kind
    have hkind : kind ∈ nodeTypeNames := hts.namesNodeType
    obtain ⟨_, mid, h₁, h₂⟩ := run_bind_ok h
    obtain ⟨hmid, pre, rfl, hpre⟩ := Yields.expect rfl (by simp) hts' h₁
    -- the node test up to `)`: what `kind` names, and for a processing instruction a literal
    suffices hsuff : Lexed rest ∧ ∃ pre', mid = pre' ++ rest ∧
        Derives .nodeTest (.nodeType kind :: .leftParen :: pre'.map Prod.fst) test by
      obtain ⟨hrest, pre', rfl, d⟩ := hsuff
      refine ⟨hrest, (.nodeType kind, q) :: (pre ++ pre'), by simp, ?_⟩
      simpa [hpre] using d
    have close := fun (v : NodeTest) =>
      Yields.expect_bind (k := .rightParen) rfl (by simp) (Yields.pure v)
    split at h₂ <;> simp only [pure_bind] at h₂
    · obtain ⟨hrest, pre', rfl, _, hpre', rfl, rfl⟩ := close _ hmid h₂
      exact ⟨hrest, pre', rfl, by simpa [hpre'] using Derives.node⟩
    · obtain ⟨hrest, pre', rfl, _, hpre', rfl, rfl⟩ := close _ hmid h₂
      exact ⟨hrest, pre', rfl, by simpa [hpre'] using Derives.text⟩
    · obtain ⟨hrest, pre', rfl, _, hpre', rfl, rfl⟩ := close _ hmid h₂
      exact ⟨hrest, pre', rfl, by simpa [hpre'] using Derives.comment⟩
    · -- the fourth node type name
      obtain rfl : kind = "processing-instruction" := by
        simp only [nodeTypeNames, List.mem_cons, List.not_mem_nil, or_false] at hkind
        tauto
      obtain ⟨t, q', ts, rfl⟩ := hmid.exists_cons
      simp only [StateT.run_bind, peek_run, ok_bind] at h₂
      split at h₂
      · obtain ⟨hadv, hts''⟩ := hmid.advance (by simp)
        rw [StateT.run_bind, hadv, ok_bind] at h₂
        obtain ⟨hrest, pre', rfl, _, hpre', rfl, rfl⟩ := close _ hts'' h₂
        exact ⟨hrest, (_, q') :: pre', rfl, by simpa [hpre'] using Derives.instructionTarget _⟩
      · obtain ⟨hrest, pre', hsplit, _, hpre', rfl, rfl⟩ := close _ hmid h₂
        exact ⟨hrest, pre', hsplit, by simpa [hpre'] using Derives.instruction⟩
  · cases h

/-- Every parser function at the depth bound `f` reads, from tokens as the lexer gives them,
only what the grammar derives, with the tree of the derivation. -/
structure Sound (f : Nat) : Prop where
  expr : Yields (TokenParser.expr f) (Derives (.level 0))
  binaryLevel : ∀ l < 6, Yields (TokenParser.binaryLevel f l) (Derives (.level l))
  operand : ∀ l < 6, Yields (TokenParser.operand f l) (Derives (.level (l + 1)))
  binaryRest : ∀ l < 6, ∀ a, Yields (TokenParser.binaryRest f l a) (Derives (.operators l a))
  unary : Yields (TokenParser.unary f) (Derives (.level 6))
  union : Yields (TokenParser.union f) (Derives .union)
  unionRest : ∀ a, Yields (TokenParser.unionRest f a) (Derives (.unions a))
  pathExpr : Yields (TokenParser.pathExpr f) (Derives .path)
  filterPath : Yields (TokenParser.filterPath f) (Derives .path)
  relativePath : Yields (TokenParser.relativePath f) (Derives .relativePath)
  stepsRest : Yields (TokenParser.stepsRest f) (Derives .moreSteps)
  step : Yields (TokenParser.step f) (Derives .step)
  stepAfterAxis : ∀ axis, Yields (TokenParser.stepAfterAxis f axis) (AlongAxis axis)
  predicates : Yields (TokenParser.predicates f) (Derives .predicates)
  primaryExpr : Yields (TokenParser.primaryExpr f) (Derives .primary)
  arguments : Yields (TokenParser.arguments f) (Derives .args)

theorem Sound.zero : Sound 0 :=
  ⟨.exhausted, fun _ _ => .exhausted, fun _ _ => .exhausted, fun _ _ _ => .exhausted, .exhausted,
    .exhausted, fun _ => .exhausted, .exhausted, .exhausted, .exhausted, .exhausted, .exhausted,
    fun _ => .exhausted, .exhausted, .exhausted, .exhausted⟩

namespace Sound

variable {f : Nat} (ih : Sound f)
include ih

theorem expr_succ : Yields (TokenParser.expr (f + 1)) (Derives (.level 0)) :=
  ih.binaryLevel 0 (by omega)

theorem binaryLevel_succ {l : Nat} (hl : l < 6) :
    Yields (TokenParser.binaryLevel (f + 1) l) (Derives (.level l)) := by
  rw [TokenParser.binaryLevel]
  refine ((ih.operand l hl).bind fun a => ih.binaryRest l hl a).imp ?_
  rintro _ e ⟨us, vs, a, rfl, d₁, d₂⟩
  exact .level hl d₁ d₂

theorem operand_succ {l : Nat} (hl : l < 6) :
    Yields (TokenParser.operand (f + 1) l) (Derives (.level (l + 1))) := by
  rw [TokenParser.operand]
  split
  · exact ih.binaryLevel (l + 1) (by simp only [lastLevel] at *; omega)
  · obtain rfl : l = 5 := by simp only [lastLevel] at *; omega
    exact ih.unary

theorem binaryRest_succ {l : Nat} (hl : l < 6) (lhs : Expr) :
    Yields (TokenParser.binaryRest (f + 1) l lhs) (Derives (.operators l lhs)) := by
  intro ts rest e hts h
  obtain ⟨t, q, ts, rfl⟩ := hts.exists_cons
  rw [TokenParser.binaryRest, peek_bind_run] at h
  split at h
  · rename_i op hop
    have ht : t ≠ .eof := by
      rintro rfl
      rw [levelOperator_eof] at hop
      cases hop
    obtain ⟨hrest, pre, rfl, us, vs, b, hpre, d₁, d₂⟩ :=
      hts.advance_yields ht h ((ih.operand l hl).bind fun rhs => ih.binaryRest l hl _)
    refine ⟨hrest, (t, q) :: pre, rfl, ?_⟩
    rw [List.map_cons, hpre]
    exact .opsCons (levelOperator_eq_some_iff.mp hop) d₁ d₂
  · obtain ⟨rfl, rfl⟩ := run_pure_ok h
    exact ⟨hts, [], rfl, .opsNil⟩

theorem unary_succ : Yields (TokenParser.unary (f + 1)) (Derives (.level 6)) := by
  intro ts rest e hts h
  obtain ⟨t, q, ts, rfl⟩ := hts.exists_cons
  rw [TokenParser.unary, nextIs_bind_run] at h
  split at h
  · rename_i hminus
    obtain rfl := PathToken.eq_of_sameAs hminus rfl
    obtain ⟨hrest, pre, rfl, a, d, rfl⟩ := hts.advance_yields (by simp) h (ih.unary.map _)
    exact ⟨hrest, (.minus, q) :: pre, rfl, .negate d⟩
  · exact (ih.union.imp fun _ _ => .unary) hts h

theorem union_succ : Yields (TokenParser.union (f + 1)) (Derives .union) := by
  rw [TokenParser.union]
  refine (ih.pathExpr.bind ih.unionRest).imp ?_
  rintro _ e ⟨us, vs, a, rfl, d₁, d₂⟩
  exact .union d₁ d₂

theorem unionRest_succ (lhs : Expr) : Yields (TokenParser.unionRest (f + 1) lhs) (Derives (.unions lhs)) := by
  intro ts rest e hts h
  obtain ⟨t, q, ts, rfl⟩ := hts.exists_cons
  rw [TokenParser.unionRest, nextIs_bind_run] at h
  split at h
  · rename_i hpipe
    obtain rfl := PathToken.eq_of_sameAs hpipe rfl
    obtain ⟨hrest, pre, rfl, us, vs, b, hpre, d₁, d₂⟩ :=
      hts.advance_yields (by simp) h (ih.pathExpr.bind fun rhs => ih.unionRest _)
    refine ⟨hrest, (.pipe, q) :: pre, rfl, ?_⟩
    rw [List.map_cons, hpre]
    exact .unionsCons d₁ d₂
  · obtain ⟨rfl, rfl⟩ := run_pure_ok h
    exact ⟨hts, [], rfl, .unionsNil⟩

theorem pathExpr_succ : Yields (TokenParser.pathExpr (f + 1)) (Derives .path) := by
  intro ts rest e hts h
  obtain ⟨t, q, ts, rfl⟩ := hts.exists_cons
  rw [TokenParser.pathExpr, peek_bind_run] at h
  split at h
  · -- `/`, and a relative path when a step follows
    have hts' := hts.tail (by simp)
    rw [hts.advance_bind (by simp)] at h
    obtain ⟨t', q', ts', hcons⟩ := hts'.exists_cons
    rw [hcons, peek_bind_run, ← hcons] at h
    split at h
    · obtain ⟨hrest, pre, rfl, steps, d, rfl⟩ := (ih.relativePath.map _) hts' h
      exact ⟨hrest, (.slash, q) :: pre, rfl, .rootPath d⟩
    · obtain ⟨rfl, rfl⟩ := run_pure_ok h
      exact ⟨hts', [(.slash, q)], rfl, .root⟩
  · obtain ⟨hrest, pre, rfl, steps, d, rfl⟩ :=
      hts.advance_yields (by simp) h (ih.relativePath.map _)
    exact ⟨hrest, (.doubleSlash, q) :: pre, rfl, .rootDescendants d⟩
  · split at h
    · obtain ⟨hrest, pre, hsplit, steps, d, rfl⟩ := (ih.relativePath.map _) hts h
      exact ⟨hrest, pre, hsplit, .relativePath d⟩
    · exact ih.filterPath hts h

theorem filterPath_succ : Yields (TokenParser.filterPath (f + 1)) (Derives .path) := by
  intro ts rest e hts h
  rw [TokenParser.filterPath] at h
  obtain ⟨p, mid, h₁, h₂⟩ := run_bind_ok h
  obtain ⟨ps, mid', h₃, h₄⟩ := run_bind_ok h₂
  obtain ⟨hmid, pre₁, rfl, d₁⟩ := ih.primaryExpr hts h₁
  obtain ⟨hmid', pre₂, rfl, d₂⟩ := ih.predicates hmid h₃
  have dfilter := Derives.filterOf d₁ d₂
  rw [← List.map_append] at dfilter
  obtain ⟨t, q, ts, rfl⟩ := hmid'.exists_cons
  rw [peek_bind_run] at h₄
  split at h₄
  · obtain ⟨hrest, pre, rfl, steps, d, rfl⟩ :=
      hmid'.advance_yields (by simp) h₄ (ih.relativePath.map _)
    refine ⟨hrest, pre₁ ++ pre₂ ++ (.slash, q) :: pre, by simp, ?_⟩
    rw [List.map_append, List.map_cons]
    exact .filterPath dfilter d
  · obtain ⟨hrest, pre, rfl, steps, d, rfl⟩ :=
      hmid'.advance_yields (by simp) h₄ (ih.relativePath.map _)
    refine ⟨hrest, pre₁ ++ pre₂ ++ (.doubleSlash, q) :: pre, by simp, ?_⟩
    rw [List.map_append, List.map_cons]
    exact .filterDescendants dfilter d
  · obtain ⟨rfl, rfl⟩ := run_pure_ok h₄
    exact ⟨hmid', pre₁ ++ pre₂, by simp, .filter dfilter⟩

theorem relativePath_succ : Yields (TokenParser.relativePath (f + 1)) (Derives .relativePath) := by
  rw [TokenParser.relativePath]
  refine (ih.step.bind fun s => ih.stepsRest.map _).imp ?_
  rintro _ _ ⟨us, vs, s, rfl, d₁, ss, d₂, rfl⟩
  exact .steps d₁ d₂

theorem stepsRest_succ : Yields (TokenParser.stepsRest (f + 1)) (Derives .moreSteps) := by
  intro ts rest ss hts h
  obtain ⟨t, q, ts, rfl⟩ := hts.exists_cons
  rw [TokenParser.stepsRest, peek_bind_run] at h
  split at h
  · obtain ⟨hrest, pre, rfl, us, vs, s, hpre, d₁, ss, d₂, rfl⟩ :=
      hts.advance_yields (by simp) h (ih.step.bind fun s => ih.stepsRest.map _)
    refine ⟨hrest, (.slash, q) :: pre, rfl, ?_⟩
    rw [List.map_cons, hpre]
    exact .slashStep d₁ d₂
  · obtain ⟨hrest, pre, rfl, us, vs, s, hpre, d₁, ss, d₂, rfl⟩ :=
      hts.advance_yields (by simp) h (ih.step.bind fun s => ih.stepsRest.map _)
    refine ⟨hrest, (.doubleSlash, q) :: pre, rfl, ?_⟩
    rw [List.map_cons, hpre]
    exact .doubleSlashStep d₁ d₂
  · obtain ⟨rfl, rfl⟩ := run_pure_ok h
    exact ⟨hts, [], rfl, .stepsNil⟩

theorem stepAfterAxis_succ (axis : Axis) :
    Yields (TokenParser.stepAfterAxis (f + 1) axis) (AlongAxis axis) := by
  rw [TokenParser.stepAfterAxis]
  refine (nodeTest_yields.bind fun test => ih.predicates.map _).imp ?_
  rintro _ _ ⟨us, vs, test, rfl, d₁, ps, d₂, rfl⟩
  exact ⟨us, vs, test, ps, rfl, d₁, d₂, rfl⟩

theorem step_succ : Yields (TokenParser.step (f + 1)) (Derives .step) := by
  intro ts rest s hts h
  obtain ⟨t, q, ts, rfl⟩ := hts.exists_cons
  rw [TokenParser.step, peek_bind_run] at h
  split at h
  · rw [hts.advance_bind (by simp)] at h
    obtain ⟨rfl, rfl⟩ := run_pure_ok h
    exact ⟨hts.tail (by simp), [(.dot, q)], rfl, .self⟩
  · rw [hts.advance_bind (by simp)] at h
    obtain ⟨rfl, rfl⟩ := run_pure_ok h
    exact ⟨hts.tail (by simp), [(.doubleDot, q)], rfl, .parent⟩
  · obtain ⟨hrest, pre, rfl, us, vs, test, ps, hpre, d₁, d₂, rfl⟩ :=
      hts.advance_yields (by simp) h (ih.stepAfterAxis _)
    refine ⟨hrest, (.atSign, q) :: pre, rfl, ?_⟩
    rw [List.map_cons, hpre]
    exact .attributeStep d₁ d₂
  · -- an axis name must name an axis, and `::` follows it
    rename_i n
    rw [offset_bind_run, hts.advance_bind (by simp)] at h
    split at h
    · rename_i axis haxis
      obtain ⟨hrest, pre, rfl, _, hpre, us, vs, test, ps, rfl, d₁, d₂, rfl⟩ :=
        Yields.expect_bind (k := .doubleColon) rfl (by simp) (ih.stepAfterAxis axis)
          (hts.tail (by simp)) h
      refine ⟨hrest, (.axisName n, q) :: pre, rfl, ?_⟩
      rw [List.map_cons, hpre]
      exact .axisStep (Axis.ofName?_eq_some_iff.mp haxis) d₁ d₂
    · cases h
  · obtain ⟨hrest, pre, hsplit, us, vs, test, ps, hpre, d₁, d₂, rfl⟩ := ih.stepAfterAxis _ hts h
    exact ⟨hrest, pre, hsplit, hpre ▸ .childStep d₁ d₂⟩

theorem predicates_succ : Yields (TokenParser.predicates (f + 1)) (Derives .predicates) := by
  intro ts rest ps hts h
  obtain ⟨t, q, ts, rfl⟩ := hts.exists_cons
  rw [TokenParser.predicates, nextIs_bind_run] at h
  split at h
  · have body := Yields.expect_bind (k := .leftBracket) rfl (by simp) (ih.expr.bind fun e =>
      Yields.expect_bind (k := .rightBracket) rfl (by simp) (ih.predicates.map (e :: ·)))
    obtain ⟨hrest, pre, hsplit, _, hpre, us, vs, e, rfl, d₁, _, rfl, es, d₂, rfl⟩ := body hts h
    exact ⟨hrest, pre, hsplit, hpre ▸ .predsCons d₁ d₂⟩
  · obtain ⟨rfl, rfl⟩ := run_pure_ok h
    exact ⟨hts, [], rfl, .predsNil⟩

theorem primaryExpr_succ : Yields (TokenParser.primaryExpr (f + 1)) (Derives .primary) := by
  intro ts rest e hts h
  obtain ⟨t, q, ts, rfl⟩ := hts.exists_cons
  rw [TokenParser.primaryExpr, offset_bind_run] at h
  by_cases ht : t = .eof
  · subst ht
    rw [hts.eof_last] at h
    cases h
  have hts' := hts.tail ht
  rw [StateT.run_bind, advance_run _ _ hts'.ne_nil, ok_bind] at h
  dsimp only at h
  split at h
  · obtain ⟨rfl, rfl⟩ := run_pure_ok h
    exact ⟨hts', [(_, q)], rfl, .var _⟩
  · obtain ⟨rfl, rfl⟩ := run_pure_ok h
    exact ⟨hts', [(_, q)], rfl, .lit _⟩
  · obtain ⟨rfl, rfl⟩ := run_pure_ok h
    exact ⟨hts', [(_, q)], rfl, .num _⟩
  · -- a bracketed expression
    obtain ⟨hrest, pre, rfl, us, vs, e, hpre, d, _, rfl, rfl, rfl⟩ :=
      (ih.expr.bind fun e => Yields.expect_bind (k := .rightParen) rfl (by simp) (Yields.pure e))
        hts' h
    refine ⟨hrest, (.leftParen, q) :: pre, rfl, ?_⟩
    rw [List.map_cons, hpre]
    exact .parens d
  · -- a call: the name, `(`, the arguments unless `)` follows, and `)`
    rename_i n
    obtain ⟨_, mid, h₁, h₂⟩ := run_bind_ok h
    obtain ⟨hmid, pre, rfl, hpre⟩ := Yields.expect rfl (by simp) hts' h₁
    suffices hsuff : Lexed rest ∧ ∃ pre', mid = pre' ++ rest ∧
        Derives .primary (.functionName n :: .leftParen :: pre'.map Prod.fst) e by
      obtain ⟨hrest, pre', rfl, d⟩ := hsuff
      refine ⟨hrest, (.functionName n, q) :: (pre ++ pre'), by simp, ?_⟩
      simpa [hpre] using d
    have close := fun (args : List Expr) =>
      Yields.expect_bind (k := .rightParen) rfl (by simp) (Yields.pure (Expr.call n args))
    obtain ⟨t', q', ts', hcons⟩ := hmid.exists_cons
    rw [hcons, nextIs_bind_run, ← hcons] at h₂
    split at h₂
    · rw [pure_bind] at h₂
      obtain ⟨hrest, pre', hsplit, _, hpre', rfl, rfl⟩ := close [] hmid h₂
      exact ⟨hrest, pre', hsplit, by simpa [hpre'] using Derives.call n⟩
    · obtain ⟨hrest, pre', hsplit, us, vs, args, hpre', d, _, rfl, rfl, rfl⟩ :=
        (ih.arguments.bind close) hmid h₂
      exact ⟨hrest, pre', hsplit, by simpa [hpre'] using Derives.callArgs d⟩
  · exact absurd rfl ht
  · cases h

theorem arguments_succ : Yields (TokenParser.arguments (f + 1)) (Derives .args) := by
  intro ts rest es hts h
  rw [TokenParser.arguments] at h
  obtain ⟨e, mid, h₁, h₂⟩ := run_bind_ok h
  obtain ⟨hmid, pre₁, rfl, d₁⟩ := ih.expr hts h₁
  obtain ⟨t, q, ts, rfl⟩ := hmid.exists_cons
  rw [nextIs_bind_run] at h₂
  split at h₂
  · rename_i hcomma
    obtain rfl := PathToken.eq_of_sameAs hcomma rfl
    obtain ⟨hrest, pre, rfl, es, d₂, rfl⟩ := hmid.advance_yields (by simp) h₂ (ih.arguments.map _)
    refine ⟨hrest, pre₁ ++ (.comma, q) :: pre, by simp, ?_⟩
    rw [List.map_append, List.map_cons]
    exact .argsCons d₁ d₂
  · obtain ⟨rfl, rfl⟩ := run_pure_ok h₂
    exact ⟨hmid, pre₁, rfl, .arg d₁⟩

omit ih in
theorem succ (ih : Sound f) : Sound (f + 1) :=
  ⟨ih.expr_succ, fun _ hl => ih.binaryLevel_succ hl, fun _ hl => ih.operand_succ hl,
    fun _ hl => ih.binaryRest_succ hl, ih.unary_succ, ih.union_succ, ih.unionRest_succ,
    ih.pathExpr_succ, ih.filterPath_succ, ih.relativePath_succ, ih.stepsRest_succ, ih.step_succ,
    ih.stepAfterAxis_succ, ih.predicates_succ, ih.primaryExpr_succ, ih.arguments_succ⟩

end Sound

theorem sound : ∀ f, Sound f
  | 0 => .zero
  | f + 1 => (sound f).succ

theorem parse_derives {s : String} {e : Expr} (h : parse s = .ok e) :
    ∃ ts p, tokenize s = .ok (ts ++ [(.eof, p)]) ∧ Derives (.level 0) (ts.map Prod.fst) e := by
  rcases htok : tokenize s with err | tokens
  · simp [parse, htok] at h
  rcases hrun : (expr (32 * (tokens.length + 1))).run tokens with err | ⟨e', rest⟩
  · simp [parse, htok, hrun] at h
  obtain ⟨hrest, pre, rfl, d⟩ := (sound _).expr (tokenize_lexed htok) hrun
  obtain ⟨t, p, rest, rfl⟩ := hrest.exists_cons
  simp only [parse, htok, hrun, ok_bind] at h
  split at h
  · -- the expression ends at `eof`, the last token
    rename_i heq
    obtain ⟨⟨rfl, -⟩, -⟩ := List.cons.inj heq |>.imp_left Prod.mk.inj
    obtain rfl := hrest.eof_last
    cases h
    exact ⟨pre, p, rfl, d⟩
  · exact absurd ‹(t, p) :: rest = []› (List.cons_ne_nil _ _)
  · cases h

end XmlPointer.Path
