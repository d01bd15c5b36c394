import XmlPointer.Pointer.Parser
import XmlPointer.Path.Eval
import XmlPointer.Document.Printer
import XmlPointer.Text.Entity

/-! # Resolving pointers

A pointer selects the nodes, or attribute values, of the first part whose expression gives a
non-empty node-set or a non-empty list of attribute values, evaluated from the context node
with the prefixes of the `xmlns()` parts before it (a later binding of a prefix shadows an
earlier one, and `xml` is always bound). A part whose expression fails or selects nothing is
passed over; when no part selects anything, the pointer fails. A shorthand selects the element
with its ID. -/
namespace XmlPointer

/-- An item that a pointer selects. -/
inductive Selected where
  | node (id : Nat)
  /-- The value of a selected attribute; attributes are not nodes of the document. -/
  | attribute (value : String)
  deriving Repr, DecidableEq

/-- The node of an item, if it is one. -/
def Selected.node? : Selected → Option Nat
  | .node id => some id
  | .attribute _ => none

def pointerBindings : Path.Bindings :=
  ⟨[("xml", xmlNamespace)]⟩

/-- The items an expression selects, if it evaluates to a non-empty node-set or list of
attribute values. -/
def selectBy (d : Document) (node : Nat) (ns : Path.Bindings) (expr : String) :
    Option (List Selected) :=
  match Path.evaluate d node expr ns with
  | .ok (.nodes ids) => if ids.isEmpty then none else some (ids.map .node)
  | .ok (.strings vs) => if vs.isEmpty then none else some (vs.map .attribute)
  | _ => none

/-- The items of the first part that selects any, with the bindings made so far. -/
def selectParts (d : Document) (node : Nat) : Path.Bindings → List Part → Option (List Selected)
  | _, [] => none
  | ns, .xmlns p u :: rest => selectParts d node (ns.declare p u) rest
  | ns, part :: rest =>
    match part.expression?.bind (selectBy d node ns) with
    | some items => some items
    | none => selectParts d node ns rest

/-- The items a pointer selects from a context node. -/
def Pointer.evaluate (p : Pointer) (d : Document) (node : Nat) :
    Except PointerError (List Selected) :=
  match p with
  | .shorthand n =>
    match selectBy d node Path.Bindings.xmlOnly ("id('" ++ n ++ "')") with
    | some items => .ok items
    | none => .error (.noSubresources n)
  | .schemeBased parts text =>
    match selectParts d node pointerBindings parts with
    | some items => .ok items
    | none => .error (.noSubresources text)

/-- The items of a pointer text from the document node. -/
def resolvePointer (d : Document) (text : String) : Except PointerError (List Selected) := do
  let p ← Pointer.parse text
  p.evaluate d 0

/-- The XML of an item: a node's markup, or an attribute value escaped as text. -/
def Selected.xml (d : Document) : Selected → String
  | .node id => d.toXml id
  | .attribute v => Text.escapeText v

def resolveEach (d : Document) (texts : List String) : List (Except PointerError (List Selected)) :=
  texts.map (resolvePointer d)

def resolveToXml (d : Document) (texts : List String) : List (Except PointerError (List String)) :=
  texts.map fun t => (resolvePointer d t).map fun items => items.map (Selected.xml d)

/-- Selected items with a position among them. -/
structure NodeSequence where
  items : List Selected
  position : Nat := 0
  deriving Repr, DecidableEq

namespace NodeSequence

def current (s : NodeSequence) : Option Selected :=
  s.items[s.position]?

def currentNode (s : NodeSequence) : Option Nat :=
  s.current.bind Selected.node?

/-- Steps to the next item; false once there is none. -/
def moveNext (s : NodeSequence) : Bool × NodeSequence :=
  let s' := if s.position < s.items.length then { s with position := s.position + 1 } else s
  (s'.position < s'.items.length, s')

end NodeSequence

end XmlPointer
