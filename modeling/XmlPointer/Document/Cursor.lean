import XmlPointer.Document.Basic

/-! # Cursors bound to a subtree

A subtree cursor stands on a node of the subtree of a fixed root and treats that root as the
top of a document of its own: at the root there is no next sibling and no parent. It keeps its
depth below the root. A move that cannot be made gives `none`. -/
namespace XmlPointer

/-- A position in the subtree of `root`, `depth` parent links below it. -/
structure SubtreeCursor where
  root : Nat
  current : Nat
  depth : Nat
  deriving Repr, DecidableEq

namespace SubtreeCursor

def atRoot (root : Nat) : SubtreeCursor :=
  ⟨root, root, 0⟩

def isAtRoot (c : SubtreeCursor) : Bool :=
  c.current == c.root

def firstChild? (d : Document) (c : SubtreeCursor) : Option SubtreeCursor :=
  (d.firstChild? c.current).map fun n => { c with current := n, depth := c.depth + 1 }

/-- Moves to the next sibling, never from the root. -/
def nextSibling? (d : Document) (c : SubtreeCursor) : Option SubtreeCursor :=
  if c.isAtRoot then none
  else (d.nextSibling? c.current).map fun n => { c with current := n }

/-- Moves to the parent, never from the root. -/
def parent? (d : Document) (c : SubtreeCursor) : Option SubtreeCursor :=
  if c.isAtRoot then none
  else (d.parent? c.current).map fun n => { c with current := n, depth := c.depth - 1 }

def toRoot (c : SubtreeCursor) : SubtreeCursor :=
  atRoot c.root

/-- The moves a subtree cursor makes. -/
inductive Move where
  | firstChild
  | nextSibling
  | parent
  | root
  deriving Repr, DecidableEq

/-- Makes a move in place: whether it was made, and the cursor after it, which is the cursor
itself when the move cannot be made. The move to the root is always made. -/
def move (d : Document) (c : SubtreeCursor) : Move → Bool × SubtreeCursor
  | .firstChild => made (c.firstChild? d)
  | .nextSibling => made (c.nextSibling? d)
  | .parent => made (c.parent? d)
  | .root => (true, c.toRoot)
where
  made : Option SubtreeCursor → Bool × SubtreeCursor
    | some c' => (true, c')
    | none => (false, c)

def moves (d : Document) (c : SubtreeCursor) (ms : List Move) : SubtreeCursor :=
  ms.foldl (fun c m => (c.move d m).2) c

end SubtreeCursor

end XmlPointer
