/-! # Documents

A document is an arena of nodes numbered in creation order, which is document order: node 0 is
the document node, and every other node has a parent, whose child list it is linked into by
first-child, last-child and sibling links. An empty string stands for an absent prefix or
namespace. Navigation follows the links: the children of a node from its first child along the
next-sibling links, its descendants from its first child on, climbing out of a subtree to the
next sibling of the nearest node that has one. -/
namespace XmlPointer

/-- What a node is. -/
inductive NodeKind where
  | document
  | element
  | text
  | cdata
  | comment
  | instruction
  deriving Repr, DecidableEq, Inhabited

/-- A stored attribute. Namespace declarations are kept for serialization; for XPath they are
no attributes. -/
structure Attr where
  name : String
  localName : String
  /-- The prefix, or empty. -/
  prefixName : String
  /-- The namespace URI, or empty: unprefixed attributes and declarations have none. -/
  nsUri : String
  value : String
  isDeclaration : Bool
  deriving Repr, DecidableEq, Inhabited

/-- A node of the arena, linked to its parent, to its first and last child and to the
siblings on either side. -/
structure Node where
  kind : NodeKind
  parent : Option Nat
  firstChild : Option Nat
  lastChild : Option Nat
  prevSibling : Option Nat
  nextSibling : Option Nat
  /-- The qualified name of an element or the target of a processing instruction. -/
  name : String
  localName : String
  prefixName : String
  nsUri : String
  /-- The character data of text, CDATA, comment and processing-instruction nodes. -/
  value : String
  attributes : Array Attr
  /-- The count of proper ancestors, kept in 16 bits. -/
  depth : UInt16
  /-- The byte offset of the node's token, kept in 32 bits. -/
  offset : UInt32
  deriving Repr, Inhabited

/-- A node with a parent, data and place in the tree, and no links to children or siblings
yet. -/
def Node.unlinked (kind : NodeKind) (parent : Option Nat) (name localName prefixName nsUri
    value : String) (attributes : Array Attr) (depth : UInt16) (offset : UInt32) : Node :=
  ⟨kind, parent, none, none, none, none, name, localName, prefixName, nsUri, value, attributes,
    depth, offset⟩

def Node.documentNode : Node :=
  .unlinked .document none "" "" "" "" "" #[] 0 0

/-- A built document. -/
structure Document where
  nodes : Array Node
  /-- The top-level element. -/
  root : Option Nat
  /-- ID values and the elements they name, first occurrence first. -/
  ids : List (String × Nat)
  /-- Line and column of every node's token. -/
  lines : Array (Nat × Nat)
  /-- The identifier the document was read from. -/
  baseUri : Option String := none
  deriving Repr, Inhabited

namespace Document

def node? (d : Document) (id : Nat) : Option Node :=
  d.nodes[id]?

def size (d : Document) : Nat :=
  d.nodes.size

def kind? (d : Document) (id : Nat) : Option NodeKind :=
  (d.node? id).map (·.kind)

def parent? (d : Document) (id : Nat) : Option Nat :=
  (d.node? id).bind (·.parent)

def firstChild? (d : Document) (id : Nat) : Option Nat :=
  (d.node? id).bind (·.firstChild)

def lastChild? (d : Document) (id : Nat) : Option Nat :=
  (d.node? id).bind (·.lastChild)

def nextSibling? (d : Document) (id : Nat) : Option Nat :=
  (d.node? id).bind (·.nextSibling)

def prevSibling? (d : Document) (id : Nat) : Option Nat :=
  (d.node? id).bind (·.prevSibling)

/-- The nodes a loop visits from `start`, going on from each to `next` of it, for at most
`fuel` nodes. -/
def follow (next : Nat → Option Nat) : Nat → Option Nat → List Nat
  | 0, _ => []
  | _ + 1, none => []
  | fuel + 1, some c => c :: follow next fuel (next c)

def children (d : Document) (id : Nat) : List Nat :=
  follow d.nextSibling? d.size (d.firstChild? id)

def followingSiblings (d : Document) (id : Nat) : List Nat :=
  follow d.nextSibling? d.size (d.nextSibling? id)

def precedingSiblings (d : Document) (id : Nat) : List Nat :=
  follow d.prevSibling? d.size (d.prevSibling? id)

/-- The attributes of an element, declarations included; none for other nodes. -/
def attributes (d : Document) (id : Nat) : List Attr :=
  match d.node? id with
  | some n => if n.kind = .element then n.attributes.toList else []
  | none => []

/-- The qualified name of an element, or the target of a processing instruction. -/
def name? (d : Document) (id : Nat) : Option String :=
  (d.node? id).bind fun n =>
    if n.kind = .element || n.kind = .instruction then some n.name else none

/-- The local name of an element, or the target of a processing instruction. -/
def localName? (d : Document) (id : Nat) : Option String :=
  (d.node? id).bind fun n =>
    if n.kind = .element then some n.localName
    else if n.kind = .instruction then some n.name
    else none

def nonEmpty (s : String) : Option String :=
  if s.isEmpty then none else some s

def prefix? (d : Document) (id : Nat) : Option String :=
  (d.node? id).bind fun n => nonEmpty n.prefixName

def namespaceUri? (d : Document) (id : Nat) : Option String :=
  (d.node? id).bind fun n => nonEmpty n.nsUri

/-- The character data of text, CDATA, comment and processing-instruction nodes. -/
def value? (d : Document) (id : Nat) : Option String :=
  (d.node? id).bind fun n =>
    match n.kind with
    | .text | .cdata | .comment | .instruction => some n.value
    | _ => none

def attribute? (d : Document) (id : Nat) (name : String) : Option String :=
  ((d.attributes id).find? fun a => !a.isDeclaration && a.name == name).map (·.value)

def elementById (d : Document) (key : String) : Option Nat :=
  (d.ids.find? (·.1 == key)).map (·.2)

/-- The node after the subtree of `node` in document order, staying inside `root`: climbing
from `node` up to `root`, the next sibling of the first node on the way that has one. -/
def nextOutside (d : Document) (root : Nat) : Nat → Nat → Option Nat
  | 0, _ => none
  | fuel + 1, node =>
    if node = root then none
    else
      match d.nextSibling? node with
      | some s => some s
      | none => (d.parent? node).bind (d.nextOutside root fuel)

def nextInside (d : Document) (root node : Nat) : Option Nat :=
  (d.firstChild? node).or (d.nextOutside root d.size node)

def descendants (d : Document) (id : Nat) : List Nat :=
  follow (d.nextInside id) d.size (d.firstChild? id)

/-- The XPath string value: the text and CDATA of the descendants for elements and the
document, the character data for other nodes. -/
def stringValue (d : Document) (id : Nat) : String :=
  match d.kind? id with
  | some .element | some .document =>
    String.join ((d.descendants id).filterMap fun c =>
      match d.node? c with
      | some n => if n.kind = .text || n.kind = .cdata then some n.value else none
      | none => none)
  | some _ => (d.value? id).getD ""
  | none => ""

def line? (d : Document) (id : Nat) : Option (Nat × Nat) :=
  d.lines[id]?

/-- The proper ancestors of a node, nearest first, following at most `fuel` parent links. -/
def ancestorsOf (d : Document) : Nat → Nat → List Nat
  | 0, _ => []
  | fuel + 1, id =>
    match d.parent? id with
    | some p => p :: d.ancestorsOf fuel p
    | none => []

def ancestors (d : Document) (id : Nat) : List Nat :=
  d.ancestorsOf d.size id

end Document

end XmlPointer
