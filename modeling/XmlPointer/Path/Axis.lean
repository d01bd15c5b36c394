import XmlPointer.Path.Expr
import XmlPointer.Path.Bindings
import XmlPointer.Path.Error
import XmlPointer.Document.Basic

/-! # Axes and node tests

The nodes of an axis, in axis order: document order for the forward axes, nearest first for
`parent`, `ancestor`, `ancestor-or-self`, `preceding-sibling` and `preceding`. Attributes are
not nodes of the document, so the attribute and namespace axes have none; the attribute axis
gives values through `attributeValues` instead. The principal node kind of every node axis is
element. A qualified test resolves its prefix for each node it looks at, so an unbound prefix
is an error only where there is a node to test. -/
namespace XmlPointer.Document

def subtree (d : Document) (id : Nat) : List Nat :=
  id :: d.descendants id

def following (d : Document) (id : Nat) : List Nat :=
  (id :: d.ancestors id).flatMap fun n => (d.followingSiblings n).flatMap d.subtree

/-- The nodes before a node that are not its ancestors, nearest first. -/
def preceding (d : Document) (id : Nat) : List Nat :=
  (id :: d.ancestors id).flatMap fun n =>
    (d.precedingSiblings n).flatMap fun s => (d.subtree s).reverse

end XmlPointer.Document

namespace XmlPointer.Path

/-- The nodes of an axis from a node, in axis order. -/
def axisNodes (d : Document) (id : Nat) : Axis → List Nat
  | .child => d.children id
  | .descendant => d.descendants id
  | .descendantOrSelf => id :: d.descendants id
  | .parent => (d.parent? id).toList
  | .ancestor => d.ancestors id
  | .ancestorOrSelf => id :: d.ancestors id
  | .followingSibling => d.followingSiblings id
  | .precedingSibling => d.precedingSiblings id
  | .following => d.following id
  | .preceding => d.preceding id
  | .selfAxis => [id]
  | .attribute => []
  | .namespaceAxis => []

/-- The URI of a prefix, or the error that it is not bound. -/
def resolvePrefix (ns : Bindings) (pre : String) : Except PathError String :=
  match ns.lookup pre with
  | some uri => .ok uri
  | none => .error (.unboundPrefix pre)

/-- An element with a namespace URI and a local name. -/
def isElementNamed (d : Document) (id : Nat) (uri : Option String) (localPart : Option String) :
    Bool :=
  d.kind? id == some .element && d.namespaceUri? id == uri &&
    (localPart.all fun l => d.localName? id == some l)

/-- Whether a node passes a node test. -/
def matchesTest (d : Document) (ns : Bindings) (id : Nat) (test : NodeTest) :
    Except PathError Bool :=
  match d.kind? id with
  | none => .ok false
  | some kind =>
    match test with
    | .node => .ok true
    | .text => .ok (kind == .text || kind == .cdata)
    | .comment => .ok (kind == .comment)
    | .instruction target =>
      .ok (kind == .instruction && target.all fun t => d.name? id == some t)
    | .any => .ok (kind == .element)
    | .name l => .ok (isElementNamed d id none (some l))
    | .qualified p l => do
      let uri ← resolvePrefix ns p
      pure (isElementNamed d id (some uri) (some l))
    | .anyIn p => do
      let uri ← resolvePrefix ns p
      pure (isElementNamed d id (some uri) none)

/-- The nodes of a list that pass a node test, in order. -/
def selectByTest (d : Document) (ns : Bindings) (test : NodeTest) :
    List Nat → Except PathError (List Nat)
  | [] => .ok []
  | id :: rest => do
    let keep ← matchesTest d ns id test
    let kept ← selectByTest d ns test rest
    pure (if keep then id :: kept else kept)

/-- Whether an attribute, not a declaration, passes a node test, given the URI that a
qualified test's prefix resolved to. -/
def attributeMatches (test : NodeTest) (expected : Option String) (a : Attr) : Bool :=
  match test with
  | .any | .node => true
  | .name l => a.nsUri.isEmpty && a.localName == l
  | .qualified _ l => some a.nsUri == expected && a.localName == l
  | .anyIn _ => some a.nsUri == expected
  | .text | .comment | .instruction _ => false

/-- The values of a node's attributes that pass a node test, declarations left out. -/
def attributeValues (d : Document) (ns : Bindings) (id : Nat) (test : NodeTest) :
    Except PathError (List String) := do
  let expected ← match test with
    | .qualified p _ | .anyIn p => some <$> resolvePrefix ns p
    | _ => pure none
  pure (((d.attributes id).filter fun a => !a.isDeclaration && attributeMatches test expected a).map
    (·.value))

end XmlPointer.Path
