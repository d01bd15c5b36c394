/-! # Expressions of XPath

The tree that parsing yields. Abbreviations are already expanded: `.` is `self::node()`, `..`
is `parent::node()`, `@` the attribute axis, and `//` a `descendant-or-self::node()` step. A
location path starts at the document node, at the context node, or at the node-set of a
filter expression. -/
namespace XmlPointer.Path

/-- The binary operators, loosest first. -/
inductive BinaryOp where
  | orOp
  | andOp
  | eq
  | notEq
  | lt
  | ltEq
  | gt
  | gtEq
  | add
  | sub
  | mul
  | div
  | mod
  deriving Repr, DecidableEq

/-- The operator with its operands swapped: `a < b` is `b > a`. -/
def BinaryOp.flip : BinaryOp → BinaryOp
  | .lt => .gt
  | .ltEq => .gtEq
  | .gt => .lt
  | .gtEq => .ltEq
  | op => op

/-- The axes of a location step. -/
inductive Axis where
  | child
  | descendant
  | descendantOrSelf
  | parent
  | ancestor
  | ancestorOrSelf
  | followingSibling
  | precedingSibling
  | following
  | preceding
  | selfAxis
  | attribute
  | namespaceAxis
  deriving Repr, DecidableEq

/-- The axis of a name. -/
def Axis.ofName? : String → Option Axis
  | "child" => some .child
  | "descendant" => some .descendant
  | "descendant-or-self" => some .descendantOrSelf
  | "parent" => some .parent
  | "ancestor" => some .ancestor
  | "ancestor-or-self" => some .ancestorOrSelf
  | "following-sibling" => some .followingSibling
  | "preceding-sibling" => some .precedingSibling
  | "following" => some .following
  | "preceding" => some .preceding
  | "self" => some .selfAxis
  | "attribute" => some .attribute
  | "namespace" => some .namespaceAxis
  | _ => none

/-- The node test of a location step. -/
inductive NodeTest where
  /-- `*`: any node of the axis' principal kind. -/
  | any
  /-- An unprefixed name: no namespace. -/
  | name (localPart : String)
  /-- `prefix:local`. -/
  | qualified (pre localPart : String)
  /-- `prefix:*`. -/
  | anyIn (pre : String)
  | node
  | text
  | comment
  | instruction (target : Option String)
  deriving Repr, DecidableEq

/-- A location step: an axis, a node test and predicates. -/
structure Step (α : Type) where
  axis : Axis
  test : NodeTest
  predicates : List α
  deriving Repr

def Step.along {α : Type} (axis : Axis) : Step α :=
  ⟨axis, .node, []⟩

/-- An XPath expression. -/
inductive Expr where
  | binary (op : BinaryOp) (lhs rhs : Expr)
  | negate (operand : Expr)
  | union (lhs rhs : Expr)
  | number (value : Float)
  | literal (value : String)
  | variable (name : String)
  | call (name : String) (args : List Expr)
  /-- A primary expression filtered by predicates. -/
  | filter (primary : Expr) (predicates : List Expr)
  /-- A location path from the document node. -/
  | rootPath (steps : List (Step Expr))
  /-- A location path from the context node. -/
  | relativePath (steps : List (Step Expr))
  /-- A location path from the node-set of an expression. -/
  | exprPath (start : Expr) (steps : List (Step Expr))
  deriving Repr, Inhabited

end XmlPointer.Path
