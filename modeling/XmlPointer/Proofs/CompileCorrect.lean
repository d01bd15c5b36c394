import XmlPointer.Path.Compile

/-! # The stack machine computes what the evaluator computes

The program of an expression, followed by any code `k` and run on any stack, evaluates the
expression and then runs `k` with its value pushed on that stack. Every other fact of this
module is a form of that one invariant, in the five shapes of the evaluator's recursion: the
arguments of a call leave their values on the stack last one on top, a location step replaces
the node-set on top, and a predicate program run at a node gives the predicate's value there,
so the compiled filters keep the nodes the evaluator keeps. In particular `and` and `or` run
their right operand only when the evaluator evaluates it, and an error of the machine is the
error of the first sub-expression that the evaluator finds failing. -/
namespace XmlPointer

@[simp] theorem ok_bind {ε α β : Type} (a : α) (f : α → Except ε β) :
    (Except.ok a >>= f) = f a := rfl

@[simp] theorem error_bind {ε α β : Type} (e : ε) (f : α → Except ε β) :
    (Except.error e >>= f) = Except.error e := rfl

namespace Path

section Machine

variable (c : Context)

@[simp] theorem run_nil (st : List Value) : run c [] st = pure (pop st).1 := by
  rw [run]
  rfl

@[simp] theorem run_cons (op : Op) (ops : List Op) (st : List Value) :
    run c (op :: ops) st = exec c op st >>= run c ops := by
  rw [run]

theorem exec_call (n : String) (vs st : List Value) :
    exec c (.call n vs.length) (vs.reverse ++ st) =
      callFunction c n vs >>= fun v => pure (v :: st) := by
  have hlen : vs.length = vs.reverse.length := List.length_reverse.symm
  rw [exec, hlen, List.take_left, List.drop_left, List.reverse_reverse]

end Machine

theorem evalArgs_length {c : Context} : ∀ {args : List Expr} {vs : List Value},
    evalArgs c args = .ok vs → vs.length = args.length
  | [], vs, h => by
    rw [evalArgs] at h
    cases h
    rfl
  | e :: es, vs, h => by
    rw [evalArgs] at h
    cases he : eval c e with
    | error err => simp [he] at h
    | ok v =>
      cases hes : evalArgs c es with
      | error err =>
        simp only [he, hes, ok_bind, error_bind] at h
        cases h
      | ok ws =>
        simp only [he, hes, ok_bind] at h
        cases h
        simp [evalArgs_length hes]

/-- The compiler's invariant, proved along the evaluator's own recursion: a program followed by
`k` evaluates and pushes. The five statements are those for an expression, the location steps
after a start value, the predicates of a filter, one predicate over a numbered list, and the
arguments of a call. -/
theorem run_compile_append :
    ∀ (c : Context) (e : Expr) (k : List Op) (st : List Value),
      run c (compile e ++ k) st = eval c e >>= fun v => run c k (v :: st) := by
  intro c e
  refine eval.induct
    (fun c e => ∀ k st, run c (compile e ++ k) st = eval c e >>= fun v => run c k (v :: st))
    (fun c steps v => ∀ k st, run c (compileSteps steps ++ k) (v :: st) =
      evalSteps c steps v >>= fun w => run c k (w :: st))
    (fun c preds ids => runFilters c (compileEach preds) ids = filterAll c preds ids)
    (fun c p size l => runFilter c (compile p) size l = filterBy c p size l)
    (fun c args => ∀ k st, run c (compileArgs args ++ k) st =
      evalArgs c args >>= fun vs => run c k (vs.reverse ++ st))
    ?number ?literal ?unbound ?negate ?andOp ?orOp ?binary ?union ?call ?filter ?rootPath
    ?relativePath ?exprPath ?stepsNil ?stepsCons ?filtersNil ?filtersCons ?filterNil ?filterCons
    ?argsNil ?argsCons c e
  case number => intro c v k st; simp [compile, eval, exec]
  case literal => intro c s k st; simp [compile, eval, exec]
  case unbound => intro c n k st; simp [compile, eval, exec]
  case negate =>
    intro c e ih k st
    simp [compile, eval, ih, exec, pop]
  -- `and` and `or`: the right operand is a program of its own, run on an empty stack
  case andOp =>
    intro c l r ihl ihr k st
    have hr : run c (compile r) [] = eval c r := by simpa [pop] using ihr [] []
    simp only [compile, eval, List.append_assoc, List.singleton_append, ihl, bind_assoc]
    refine congrArg (eval c l >>= ·) (funext fun a => ?_)
    cases ha : a.toBoolean <;> simp [exec, pop, ha, hr]
  case orOp =>
    intro c l r ihl ihr k st
    have hr : run c (compile r) [] = eval c r := by simpa [pop] using ihr [] []
    simp only [compile, eval, List.append_assoc, List.singleton_append, ihl, bind_assoc]
    refine congrArg (eval c l >>= ·) (funext fun a => ?_)
    cases ha : a.toBoolean <;> simp [exec, pop, ha, hr]
  case binary =>
    intro c op l r hand hor ihl ihr k st
    rw [compile, eval]
    · simp [List.append_assoc, ihl, ihr, exec, pop]
    all_goals assumption
  case union =>
    intro c l r ihl ihr k st
    simp [compile, eval, List.append_assoc, ihl, ihr, exec, pop]
  case call =>
    intro c n args ih k st
    simp only [compile, eval, List.append_assoc, ih, List.singleton_append, run_cons, bind_assoc]
    cases hargs : evalArgs c args with
    | error err => rfl
    | ok vs => simp [← evalArgs_length hargs, exec_call]
  case filter =>
    intro c p preds ih ihf k st
    simp [compile, eval, List.append_assoc, ih, exec, pop, ihf]
  case rootPath =>
    intro c steps ih k st
    simp [compile, eval, exec, ih]
  case relativePath =>
    intro c steps ih k st
    simp [compile, eval, exec, ih]
  case exprPath =>
    intro c e steps ih ihs k st
    simp [compile, eval, List.append_assoc, ih, ihs]
  case stepsNil =>
    intro c v k st
    simp [compileSteps, evalSteps]
  -- a step: the attribute axis with no predicate, with predicates (an error), or another axis
  case stepsCons =>
    intro c axis test preds rest v ihAttr ihf ihNodes k st
    have hempty : compileEach preds = [] ↔ preds = [] := by cases preds <;> simp [compileEach]
    simp only [compileSteps, evalSteps, List.cons_append, run_cons, exec, pop, bind_assoc]
    refine congrArg (v.toNodes >>= ·) (funext fun input => ?_)
    by_cases hattr : axis = .attribute
    · by_cases hp : preds = []
      · subst hp
        simp [hattr, compileEach, ihAttr]
      · simp [hattr, hp, hempty]
    · simp [hattr, ihNodes, ihf]
  case filtersNil =>
    intro c ids
    simp [compileEach, runFilters, filterAll]
  case filtersCons =>
    intro c p ps ids ihp ihps
    simp [compileEach, runFilters, filterAll, ihp, ihps]
  case filterNil =>
    intro c p size
    simp [runFilter, filterBy]
  -- a predicate program runs at the node, its position and the size, on an empty stack
  case filterCons =>
    intro c p size id position rest ihp ihrest
    have hp : run (c.at id position size) (compile p) [] = eval (c.at id position size) p := by
      simpa [pop] using ihp [] []
    simp [runFilter, filterBy, hp, ihrest]
  case argsNil =>
    intro c k st
    simp [compileArgs, evalArgs]
  case argsCons =>
    intro c e es ihe ihes k st
    simp [compileArgs, evalArgs, List.append_assoc, ihe, ihes]

/-- Running the program of an expression on an empty stack gives the expression's value, in
every context: the machine and the evaluator agree on every value and on every error. -/
theorem run_compile (c : Context) (e : Expr) : run c (compile e) [] = eval c e := by
  simpa [pop] using run_compile_append c e [] []

theorem evaluateCompiled_eq_evaluate (d : Document) (node : Nat) (text : String)
    (ns : Bindings) : evaluateCompiled d node text ns = evaluate d node text ns := by
  have hrun : ∀ e, run ⟨d, node, 1, 1, ns⟩ (compile e) [] = eval ⟨d, node, 1, 1, ns⟩ e :=
    fun e => by simpa [pop] using run_compile_append ⟨d, node, 1, 1, ns⟩ e [] []
  simp only [evaluateCompiled, evaluate, hrun]

end Path

end XmlPointer
