import XmlPointer.Path.Parser
import XmlPointer.Path.Axis
import XmlPointer.Path.Function

/-! # Evaluating expressions

The value of an expression in a context, by recursion on the expression. Operands are
evaluated left to right, and an error stops the evaluation. `and` and `or` evaluate their
right operand only when the left one does not decide; every other operator and every call
evaluates all its operands first. A location step maps each input node to the nodes of its
axis that pass the node test, filters them by the predicates with positions along the axis,
and returns the union in document order. The attribute axis selects values, not nodes: it
takes no predicates, and nothing can step on from it. -/
namespace XmlPointer.Path

/-- A comparison of two numbers; false for the operators that do not compare. -/
def compareNumbers (op : BinaryOp) (a b : Float) : Bool :=
  match op with
  | .eq => a == b
  | .notEq => a != b
  | .lt => a < b
  | .ltEq => a <= b
  | .gt => a > b
  | .gtEq => a >= b
  | _ => false

/-- A comparison of two strings: as strings for `=` and `!=`, as numbers otherwise. -/
def compareStrings (op : BinaryOp) (a b : String) : Bool :=
  match op with
  | .eq => a == b
  | .notEq => a != b
  | _ => compareNumbers op (parseNumber a) (parseNumber b)

/-- A comparison of two values that are neither node-sets nor lists: `=` and `!=` compare
as booleans if either is one, else as numbers if either is one, else as strings; the order
operators compare numbers. -/
def compareScalars (d : Document) (op : BinaryOp) (a b : Value) : Bool :=
  match op with
  | .eq | .notEq =>
    let equal := match a, b with
      | .boolean _, _ | _, .boolean _ => a.toBoolean == b.toBoolean
      | .number _, _ | _, .number _ => a.toNumber d == b.toNumber d
      | _, _ => a.toText d == b.toText d
    equal == (op == .eq)
  | _ => compareNumbers op (a.toNumber d) (b.toNumber d)

/-- A comparison of the strings of a node-set or list with a scalar: a boolean compares with
whether there are any strings, a number or string with some string. -/
def compareSet (d : Document) (op : BinaryOp) (set : List String) (scalar : Value) : Bool :=
  match scalar with
  | .boolean _ => compareScalars d op (.boolean !set.isEmpty) scalar
  | .number v => set.any fun s => compareNumbers op (parseNumber s) v
  | .string s => set.any fun a => compareStrings op a s
  | .nodes _ | .strings _ => false

/-- The comparison of two values by XPath 1.0: between two node-sets (or lists) it holds when
it holds for some pair of their strings. -/
def compareValues (d : Document) (op : BinaryOp) (a b : Value) : Bool :=
  match a.atoms d, b.atoms d with
  | some l, some r => l.any fun x => r.any fun y => compareStrings op x y
  | some l, none => compareSet d op l b
  | none, some r => compareSet d op.flip r a
  | none, none => compareScalars d op a b

/-- An operator other than `and` and `or` on two values. -/
def applyBinary (d : Document) (op : BinaryOp) (a b : Value) : Value :=
  match op with
  | .add => .number (a.toNumber d + b.toNumber d)
  | .sub => .number (a.toNumber d - b.toNumber d)
  | .mul => .number (a.toNumber d * b.toNumber d)
  | .div => .number (a.toNumber d / b.toNumber d)
  | .mod => .number (Binary64.remainder (a.toNumber d) (b.toNumber d))
  | _ => .boolean (compareValues d op a b)

/-- A predicate's verdict on the node at a position: a number selects that position, any
other value its boolean. -/
def Value.keeps (position : Nat) : Value → Bool
  | .number v => v == Float.ofNat position
  | v => v.toBoolean

def Context.at (c : Context) (node position size : Nat) : Context :=
  { c with node, position, size }

mutual

/-- The value of an expression. -/
def eval (c : Context) : Expr → Except PathError Value
  | .number v => .ok (.number v)
  | .literal s => .ok (.string s)
  | .variable n => .error (.unboundVariable n)
  | .negate e => do
    let v ← eval c e
    pure (.number (-(v.toNumber c.doc)))
  | .binary .andOp l r => do
    let a ← eval c l
    if a.toBoolean then
      let b ← eval c r
      pure (.boolean b.toBoolean)
    else pure (.boolean false)
  | .binary .orOp l r => do
    let a ← eval c l
    if a.toBoolean then pure (.boolean true)
    else
      let b ← eval c r
      pure (.boolean b.toBoolean)
  | .binary op l r => do
    let a ← eval c l
    let b ← eval c r
    pure (applyBinary c.doc op a b)
  | .union l r => do
    let a ← eval c l
    let b ← eval c r
    let rs ← b.toNodes
    let ls ← a.toNodes
    pure (.nodes (normalize (ls ++ rs)))
  | .call n args => do
    let vs ← evalArgs c args
    callFunction c n vs
  | .filter p preds => do
    let v ← eval c p
    let ids ← v.toNodes
    pure (.nodes (← filterAll c preds ids))
  | .rootPath steps => evalSteps c steps (.nodes [0])
  | .relativePath steps => evalSteps c steps (.nodes [c.node])
  | .exprPath e steps => do
    let v ← eval c e
    evalSteps c steps v

/-- The values of a call's arguments, in order. -/
def evalArgs (c : Context) : List Expr → Except PathError (List Value)
  | [] => .ok []
  | e :: es => do
    let v ← eval c e
    let vs ← evalArgs c es
    pure (v :: vs)

/-- The nodes that pass each predicate in turn, positions counted in the list's order. -/
def filterAll (c : Context) : List Expr → List Nat → Except PathError (List Nat)
  | [], ids => .ok ids
  | p :: ps, ids => do
    let kept ← filterBy c p ids.length (ids.zipIdx 1)
    filterAll c ps kept

/-- The nodes of a numbered list for which a predicate holds. -/
def filterBy (c : Context) (p : Expr) (size : Nat) : List (Nat × Nat) → Except PathError (List Nat)
  | [] => .ok []
  | (id, position) :: rest => do
    let v ← eval (c.at id position size) p
    let kept ← filterBy c p size rest
    pure (if v.keeps position then id :: kept else kept)

/-- The value of location steps applied in turn to a value, which must be a node-set. -/
def evalSteps (c : Context) : List (Step Expr) → Value → Except PathError Value
  | [], v => .ok v
  | ⟨axis, test, preds⟩ :: rest, v => do
    let input ← v.toNodes
    if axis == .attribute then
      if preds.isEmpty then
        let values ← input.mapM fun id => attributeValues c.doc c.ns id test
        evalSteps c rest (.strings values.flatten)
      else .error (.notNodeSet "attribute values")
    else
      let selected ← input.mapM fun id => do
        let candidates ← selectByTest c.doc c.ns test (axisNodes c.doc id axis)
        filterAll c preds candidates
      evalSteps c rest (.nodes (normalize selected.flatten))

end

/-- The value of an expression text from a context node with prefix bindings. -/
def evaluate (d : Document) (node : Nat) (text : String) (ns : Bindings) :
    Except PathError Value := do
  let e ← parse text
  eval ⟨d, node, 1, 1, ns⟩ e

end XmlPointer.Path
