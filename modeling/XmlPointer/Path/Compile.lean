import XmlPointer.Path.Eval

/-! # Compiled expressions

An expression compiles to a program for a stack machine: the programs of its operands in
order, then its operator, which pops their values and pushes its own. `and` and `or` keep their
right operand as a program of its own, run only when the left value does not decide, and each
predicate is a program run once for every node it filters. A program leaves the value of its
expression on the stack, so running the program of an expression gives what `eval` gives; the
machine takes the empty node-set for a value missing from the stack. -/
namespace XmlPointer.Path

/-- One instruction of the stack machine. -/
inductive Op where
  /-- Pushes the document node. -/
  | root
  /-- Pushes the context node. -/
  | context
  /-- Replaces the node-set on top with one location step. -/
  | step (axis : Axis) (test : NodeTest) (predicates : List (List Op))
  /-- Filters the node-set on top, positions in document order. -/
  | filter (predicates : List (List Op))
  | union
  | number (v : Float)
  | literal (s : String)
  /-- Calls a function on the given count of values from the top, the first pushed first. -/
  | call (name : String) (argc : Nat)
  | binary (op : BinaryOp)
  /-- `and` or `or` on the value on top and, when it does not decide, the right operand. -/
  | logical (op : BinaryOp) (rhs : List Op)
  | negate
  | variable (name : String)
  deriving Repr

mutual

/-- The program of an expression. -/
def compile : Expr → List Op
  | .number v => [.number v]
  | .literal s => [.literal s]
  | .variable n => [.variable n]
  | .negate e => compile e ++ [.negate]
  | .binary .andOp l r => compile l ++ [.logical .andOp (compile r)]
  | .binary .orOp l r => compile l ++ [.logical .orOp (compile r)]
  | .binary op l r => compile l ++ compile r ++ [.binary op]
  | .union l r => compile l ++ compile r ++ [.union]
  | .call n args => compileArgs args ++ [.call n args.length]
  | .filter p preds => compile p ++ [.filter (compileEach preds)]
  | .rootPath steps => .root :: compileSteps steps
  | .relativePath steps => .context :: compileSteps steps
  | .exprPath e steps => compile e ++ compileSteps steps

/-- The programs of a call's arguments, one after another. -/
def compileArgs : List Expr → List Op
  | [] => []
  | e :: es => compile e ++ compileArgs es

/-- The program of each predicate. -/
def compileEach : List Expr → List (List Op)
  | [] => []
  | e :: es => compile e :: compileEach es

/-- One step instruction per location step. -/
def compileSteps : List (Step Expr) → List Op
  | [] => []
  | ⟨axis, test, preds⟩ :: rest => .step axis test (compileEach preds) :: compileSteps rest

end

/-- The value on top of a stack and the stack below it; the empty node-set when there is
none. -/
def pop : List Value → Value × List Value
  | v :: rest => (v, rest)
  | [] => (.nodes [], [])

mutual

/-- Runs a program on a stack; the value left on top is the result. -/
def run (c : Context) : List Op → List Value → Except PathError Value
  | [], stack => .ok (pop stack).1
  | op :: ops, stack => do
    let stack ← exec c op stack
    run c ops stack

/-- Runs one instruction on a stack. -/
def exec (c : Context) : Op → List Value → Except PathError (List Value)
  | .root, st => .ok (.nodes [0] :: st)
  | .context, st => .ok (.nodes [c.node] :: st)
  | .step axis test preds, st => do
    let input ← (pop st).1.toNodes
    if axis == .attribute then
      if preds.isEmpty then
        let values ← input.mapM fun id => attributeValues c.doc c.ns id test
        pure (.strings values.flatten :: (pop st).2)
      else .error (.notNodeSet "attribute values")
    else
      let selected ← input.mapM fun id => do
        let candidates ← selectByTest c.doc c.ns test (axisNodes c.doc id axis)
        runFilters c preds candidates
      pure (.nodes (normalize selected.flatten) :: (pop st).2)
  | .filter preds, st => do
    let ids ← (pop st).1.toNodes
    let kept ← runFilters c preds ids
    pure (.nodes kept :: (pop st).2)
  | .union, st => do
    let (b, st) := pop st
    let rs ← b.toNodes
    let (a, st) := pop st
    let ls ← a.toNodes
    pure (.nodes (normalize (ls ++ rs)) :: st)
  | .number v, st => .ok (.number v :: st)
  | .literal s, st => .ok (.string s :: st)
  | .call n argc, st => do
    let v ← callFunction c n (st.take argc).reverse
    pure (v :: st.drop argc)
  | .binary op, st =>
    let (b, st) := pop st
    let (a, st) := pop st
    .ok (applyBinary c.doc op a b :: st)
  | .logical op rhs, st => do
    let (a, st) := pop st
    let left := a.toBoolean
    let decided := if op == .andOp then !left else left
    if decided then pure (.boolean left :: st)
    else
      let b ← run c rhs []
      pure (.boolean b.toBoolean :: st)
  | .negate, st =>
    let (v, st) := pop st
    .ok (.number (-(v.toNumber c.doc)) :: st)
  | .variable n, _ => .error (.unboundVariable n)

/-- The nodes that pass each predicate program in turn, positions counted in the list's
order. -/
def runFilters (c : Context) : List (List Op) → List Nat → Except PathError (List Nat)
  | [], ids => .ok ids
  | p :: ps, ids => do
    let kept ← runFilter c p ids.length (ids.zipIdx 1)
    runFilters c ps kept

/-- The nodes of a numbered list for which a predicate program holds. -/
def runFilter (c : Context) (p : List Op) (size : Nat) :
    List (Nat × Nat) → Except PathError (List Nat)
  | [] => .ok []
  | (id, position) :: rest => do
    let v ← run (c.at id position size) p []
    let kept ← runFilter c p size rest
    pure (if v.keeps position then id :: kept else kept)

end

/-- The value of an expression text from a context node with prefix bindings, by running its
compiled program. -/
def evaluateCompiled (d : Document) (node : Nat) (text : String) (ns : Bindings) :
    Except PathError Value := do
  let e ← parse text
  run ⟨d, node, 1, 1, ns⟩ (compile e) []

end XmlPointer.Path
