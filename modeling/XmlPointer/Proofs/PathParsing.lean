import XmlPointer.Proofs.CompileCorrect

/-! # What the expression parser reads

The parser functions take a depth bound and run on the list of tokens. `Reads c p ts rest a`
says that from the bound `c` on, `p` reads the value `a` off `ts` and leaves `rest`: the bound
is spent by one per nested call, so each lemma below adds the calls it makes to the bound of
the parts it is built from. The lemmas follow the grammar from the bottom up: literals and
numbers, a call of one argument, a primary expression with or without a path after it, a
location path from the root, and steps along the child axis with one predicate. An operand
that is followed by a closing bracket or by the end climbs through every precedence level
unchanged (`Reads.expr_of_pathExpr`), and `parse` gives the value of a whole expression that is
read up to its `eof` (`parse_of_reads`). -/
namespace XmlPointer.Path

open TokenParser

section Primitives

variable (t : PathToken) (p : Nat) (ts : Tokens)

theorem peek_run : peek.run ((t, p) :: ts) = .ok (t, (t, p) :: ts) := rfl

theorem offset_run : offset.run ((t, p) :: ts) = .ok (p, (t, p) :: ts) := rfl

theorem nextIs_run (t' : PathToken) :
    (nextIs t').run ((t, p) :: ts) = .ok (t.sameAs t', (t, p) :: ts) := rfl

variable {ts}

theorem advance_run (h : ts ≠ []) : advance.run ((t, p) :: ts) = .ok (t, ts) := by
  cases ts with
  | nil => contradiction
  | cons x xs => rfl

theorem discard_advance_run (h : ts ≠ []) : (discard advance).run ((t, p) :: ts) = .ok ((), ts) := by
  cases ts with
  | nil => contradiction
  | cons x xs => rfl

theorem expect_run {t' : PathToken} (ht : t.sameAs t' = true) (h : ts ≠ []) :
    (expect t').run ((t, p) :: ts) = .ok ((), ts) := by
  simp only [expect, StateT.run_bind, nextIs_run, ok_bind, ht, if_true, discard_advance_run t p h]

end Primitives

/-- The tokens after which no operand continues: no operator, no `|`, no predicate and no
further step can follow. -/
def endsOperand : PathToken → Bool
  | .rightParen | .rightBracket | .eof => true
  | _ => false

theorem levelOperator_of_endsOperand {t : PathToken} (ht : endsOperand t = true) (l : Nat) :
    levelOperator l t = none := by
  cases t <;> simp [endsOperand] at ht <;> (unfold levelOperator; split <;> simp_all)

def Reads {α : Type} (c : Nat) (p : Nat → TokenParser α) (ts rest : Tokens) (a : α) : Prop :=
  ∀ f, c ≤ f → (p f).run ts = .ok (a, rest)

theorem Reads.mono {α : Type} {c c' : Nat} {p : Nat → TokenParser α} {ts rest : Tokens} {a : α}
    (h : Reads c p ts rest a) (hc : c ≤ c') : Reads c' p ts rest a :=
  fun f hf => h f (Nat.le_trans hc hf)

section Operand

-- what a whole operand leaves: a token that ends it
variable {ts : Tokens} {t : PathToken} {q : Nat} {rest : Tokens} {e : Expr}
  (hend : endsOperand t = true)

include hend

theorem binaryRest_run (f l : Nat) :
    (binaryRest (f + 1) l e).run ((t, q) :: rest) = .ok (e, (t, q) :: rest) := by
  simp only [binaryRest, StateT.run_bind, peek_run, ok_bind, levelOperator_of_endsOperand hend]
  rfl

theorem unionRest_run (f : Nat) :
    (unionRest (f + 1) e).run ((t, q) :: rest) = .ok (e, (t, q) :: rest) := by
  have hpipe : t.sameAs .pipe = false := by cases t <;> simp_all [endsOperand, PathToken.sameAs]
  simp only [unionRest, StateT.run_bind, nextIs_run, ok_bind, hpipe]
  rfl

theorem Reads.union (h : Reads c TokenParser.pathExpr ts ((t, q) :: rest) e) :
    Reads (c + 2) TokenParser.union ts ((t, q) :: rest) e := by
  intro f hf
  obtain ⟨g, rfl⟩ : ∃ g, f = g + 1 + 1 := ⟨f - 2, by omega⟩
  simp only [TokenParser.union, StateT.run_bind, h (g + 1) (by omega), ok_bind, unionRest_run hend]

omit hend in
theorem Reads.unary {t₀ : PathToken} {p₀ : Nat} {ts₀ : Tokens}
    (h : Reads c TokenParser.union ((t₀, p₀) :: ts₀) rest e) (hminus : t₀.sameAs .minus = false) :
    Reads (c + 1) TokenParser.unary ((t₀, p₀) :: ts₀) rest e := by
  intro f hf
  obtain ⟨g, rfl⟩ : ∃ g, f = g + 1 := ⟨f - 1, by omega⟩
  simp only [TokenParser.unary, StateT.run_bind, nextIs_run, ok_bind, hminus]
  exact h g (by omega)

theorem Reads.binaryLevel (h : Reads c TokenParser.unary ts ((t, q) :: rest) e) :
    ∀ k, k ≤ 5 → Reads (c + 2 + 2 * k) (TokenParser.binaryLevel · (5 - k)) ts ((t, q) :: rest) e := by
  intro k
  induction k with
  | zero =>
    intro _ f hf
    obtain ⟨g, rfl⟩ : ∃ g, f = g + 1 + 1 := ⟨f - 2, by omega⟩
    simp only [TokenParser.binaryLevel, StateT.run_bind, operand, lastLevel, Nat.sub_zero,
      Nat.lt_irrefl, if_false, h g (by omega), ok_bind, binaryRest_run hend]
  | succ k ih =>
    intro hk f hf
    obtain ⟨g, rfl⟩ : ∃ g, f = g + 1 + 1 := ⟨f - 2, by omega⟩
    have hlevel : 5 - (k + 1) < lastLevel := by simp only [lastLevel]; omega
    have hnext : 5 - (k + 1) + 1 = 5 - k := by omega
    simp only [TokenParser.binaryLevel, StateT.run_bind, operand, hlevel, if_true, hnext,
      ih (by omega) g (by omega), ok_bind, binaryRest_run hend]

theorem Reads.expr (h : Reads c TokenParser.unary ts ((t, q) :: rest) e) :
    Reads (c + 13) TokenParser.expr ts ((t, q) :: rest) e := by
  intro f hf
  obtain ⟨g, rfl⟩ : ∃ g, f = g + 1 := ⟨f - 1, by omega⟩
  simp only [TokenParser.expr]
  exact Reads.binaryLevel hend h 5 (Nat.le_refl 5) g (by omega)

end Operand

theorem Reads.expr_of_pathExpr {c : Nat} {t₀ t : PathToken} {p₀ q : Nat} {ts₀ rest : Tokens}
    {e : Expr} (h : Reads c TokenParser.pathExpr ((t₀, p₀) :: ts₀) ((t, q) :: rest) e)
    (hminus : t₀.sameAs .minus = false) (hend : endsOperand t = true) :
    Reads (c + 16) TokenParser.expr ((t₀, p₀) :: ts₀) ((t, q) :: rest) e :=
  ((h.union hend).unary hminus).expr hend


section Primary

variable {c : Nat} {p q : Nat} {ts rest : Tokens}

theorem Reads.literal (s : String) (h : ts ≠ []) :
    Reads 1 primaryExpr ((.literal s, p) :: ts) ts (.literal s) := by
  intro f hf
  obtain ⟨g, rfl⟩ : ∃ g, f = g + 1 := ⟨f - 1, by omega⟩
  simp only [primaryExpr, StateT.run_bind, offset_run, ok_bind, advance_run _ _ h]
  rfl

theorem Reads.number (v : Float) (h : ts ≠ []) :
    Reads 1 primaryExpr ((.number v, p) :: ts) ts (.number v) := by
  intro f hf
  obtain ⟨g, rfl⟩ : ∃ g, f = g + 1 := ⟨f - 1, by omega⟩
  simp only [primaryExpr, StateT.run_bind, offset_run, ok_bind, advance_run _ _ h]
  rfl

theorem predicates_none {t : PathToken} (ht : t.sameAs .leftBracket = false) (f : Nat) :
    (predicates (f + 1)).run ((t, q) :: rest) = .ok ([], (t, q) :: rest) := by
  simp only [predicates, StateT.run_bind, nextIs_run, ok_bind, ht]
  rfl

theorem Reads.filterPath {t : PathToken} {e : Expr} (h : Reads c primaryExpr ts ((t, q) :: rest) e)
    (hend : endsOperand t = true) : Reads (c + 2) TokenParser.filterPath ts ((t, q) :: rest) e := by
  intro f hf
  obtain ⟨g, rfl⟩ : ∃ g, f = g + 1 + 1 := ⟨f - 2, by omega⟩
  have hbracket : t.sameAs .leftBracket = false := by
    cases t <;> simp_all [endsOperand, PathToken.sameAs]
  simp only [TokenParser.filterPath, StateT.run_bind, h (g + 1) (by omega), ok_bind,
    predicates_none hbracket, peek_run]
  cases t <;> simp [endsOperand] at hend <;> rfl

theorem Reads.exprPath {ts' : Tokens} {e : Expr} {steps : List (Step Expr)}
    (h : Reads c primaryExpr ts ((.slash, q) :: ts') e) (hsteps : Reads c relativePath ts' rest steps)
    (hts' : ts' ≠ []) : Reads (c + 2) TokenParser.filterPath ts rest (.exprPath e steps) := by
  intro f hf
  obtain ⟨g, rfl⟩ : ∃ g, f = g + 1 + 1 := ⟨f - 2, by omega⟩
  simp only [TokenParser.filterPath, StateT.run_bind, h (g + 1) (by omega), ok_bind,
    predicates_none (show PathToken.slash.sameAs .leftBracket = false from rfl), peek_run]
  simp only [discard_advance_run _ _ hts', ok_bind, hsteps (g + 1) (by omega)]
  rfl

/-- The tokens that begin a primary expression here: a literal, a number or a call. -/
def beginsPrimary : PathToken → Bool
  | .literal _ | .number _ | .functionName _ => true
  | _ => false

theorem Reads.pathExpr {t : PathToken} {e : Expr}
    (h : Reads c TokenParser.filterPath ((t, p) :: ts) rest e) (ht : beginsPrimary t = true) :
    Reads (c + 1) TokenParser.pathExpr ((t, p) :: ts) rest e := by
  intro f hf
  obtain ⟨g, rfl⟩ : ∃ g, f = g + 1 := ⟨f - 1, by omega⟩
  have hg := h g (by omega)
  simp only [TokenParser.pathExpr, StateT.run_bind, peek_run, ok_bind]
  cases t <;> simp [beginsPrimary] at ht <;> simpa [startsStep] using hg

theorem Reads.rootPath {a b : Option String} {steps : List (Step Expr)}
    (h : Reads c relativePath ((.nameTest a b, q) :: ts) rest steps) :
    Reads (c + 1) TokenParser.pathExpr ((.slash, p) :: (.nameTest a b, q) :: ts) rest
      (.rootPath steps) := by
  intro f hf
  obtain ⟨g, rfl⟩ : ∃ g, f = g + 1 := ⟨f - 1, by omega⟩
  simp only [TokenParser.pathExpr, StateT.run_bind, peek_run, ok_bind,
    discard_advance_run _ _ (List.cons_ne_nil _ _), startsStep, if_true, h g (by omega)]
  rfl

theorem Reads.call {t : PathToken} {e : Expr} (n : String)
    (h : Reads c TokenParser.expr ((t, q) :: ts) ((.rightParen, r) :: rest) e)
    (ht : t.sameAs .rightParen = false) (hrest : rest ≠ []) :
    Reads (c + 2) primaryExpr ((.functionName n, p) :: (.leftParen, p') :: (t, q) :: ts) rest
      (.call n [e]) := by
  intro f hf
  obtain ⟨g, rfl⟩ : ∃ g, f = g + 1 + 1 := ⟨f - 2, by omega⟩
  have hopen := expect_run .leftParen p' (show PathToken.leftParen.sameAs .leftParen = true from rfl)
    (List.cons_ne_nil (t, q) ts)
  have hclose := expect_run .rightParen r (show PathToken.rightParen.sameAs .rightParen = true from rfl)
    hrest
  simp only [primaryExpr, StateT.run_bind, offset_run, ok_bind,
    advance_run _ _ (List.cons_ne_nil _ _), hopen, nextIs_run, ht, Bool.false_eq_true, ↓reduceIte]
  simp only [arguments, StateT.run_bind, h g (by omega), ok_bind, nextIs_run,
    show PathToken.rightParen.sameAs .comma = false from rfl, Bool.false_eq_true, ↓reduceIte,
    StateT.run_pure, pure_bind, hclose]
  rfl

end Primary

section Steps

variable {c : Nat} {p q r : Nat} {ts ts' rest : Tokens}

theorem Reads.predicate {t : PathToken} {e : Expr}
    (h : Reads c TokenParser.expr ts ((.rightBracket, r) :: (t, q) :: rest) e)
    (ht : t.sameAs .leftBracket = false) (hts : ts ≠ []) :
    Reads (c + 2) predicates ((.leftBracket, p) :: ts) ((t, q) :: rest) [e] := by
  intro f hf
  obtain ⟨g, rfl⟩ : ∃ g, f = g + 1 + 1 := ⟨f - 2, by omega⟩
  have hopen := expect_run .leftBracket p
    (show PathToken.leftBracket.sameAs .leftBracket = true from rfl) hts
  have hclose := expect_run .rightBracket r
    (show PathToken.rightBracket.sameAs .rightBracket = true from rfl) (List.cons_ne_nil (t, q) rest)
  simp only [predicates, StateT.run_bind, nextIs_run, ok_bind,
    show PathToken.leftBracket.sameAs .leftBracket = true from rfl, hopen,
    h (g + 1) (by omega), hclose, ht, Bool.false_eq_true, ↓reduceIte]
  rfl

theorem Reads.childStep {a b : Option String} {preds : List Expr}
    (h : Reads c predicates ts rest preds) (hts : ts ≠ []) :
    Reads (c + 2) step ((.nameTest a b, p) :: ts) rest ⟨.child, nameNodeTest a b, preds⟩ := by
  intro f hf
  obtain ⟨g, rfl⟩ : ∃ g, f = g + 1 + 1 := ⟨f - 2, by omega⟩
  simp only [step, StateT.run_bind, peek_run, ok_bind]
  simp only [stepAfterAxis, nodeTest, StateT.run_bind, offset_run, ok_bind, advance_run _ _ hts,
    StateT.run_pure, pure_bind, h g (by omega)]
  rfl

theorem stepsRest_eof (f : Nat) :
    (stepsRest (f + 1)).run ((.eof, p) :: ts) = .ok ([], (.eof, p) :: ts) := rfl

theorem Reads.stepsRest {s : Step Expr} {steps : List (Step Expr)}
    (h : Reads c step ts ts' s) (hrest : Reads c TokenParser.stepsRest ts' rest steps)
    (hts : ts ≠ []) : Reads (c + 1) TokenParser.stepsRest ((.slash, p) :: ts) rest (s :: steps) := by
  intro f hf
  obtain ⟨g, rfl⟩ : ∃ g, f = g + 1 := ⟨f - 1, by omega⟩
  simp only [TokenParser.stepsRest, StateT.run_bind, peek_run, ok_bind, discard_advance_run _ _ hts,
    h g (by omega), hrest g (by omega)]
  rfl

theorem Reads.relativePath {s : Step Expr} {steps : List (Step Expr)}
    (h : Reads c step ts ts' s) (hrest : Reads c TokenParser.stepsRest ts' rest steps) :
    Reads (c + 1) TokenParser.relativePath ts rest (s :: steps) := by
  intro f hf
  obtain ⟨g, rfl⟩ : ∃ g, f = g + 1 := ⟨f - 1, by omega⟩
  simp only [TokenParser.relativePath, StateT.run_bind, h g (by omega), ok_bind,
    hrest g (by omega)]
  rfl

end Steps

theorem parse_of_reads {s : String} {ts rest : Tokens} {c q : Nat} {e : Expr}
    (htok : tokenize s = .ok ts) (h : Reads c TokenParser.expr ts ((.eof, q) :: rest) e)
    (hc : c ≤ 32 * (ts.length + 1)) : parse s = .ok e := by
  simp only [parse, htok, ok_bind, h _ hc]
  rfl

end XmlPointer.Path
