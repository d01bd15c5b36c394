import XmlPointer.Document.Basic
import XmlPointer.Document.Scope
import XmlPointer.Document.Error
import XmlPointer.Document.Lines
import XmlPointer.Markup.Event
import XmlPointer.Markup.Dtd

/-! # Building a document from events

The builder reads the pull events of the bytes into the arena, keeping the open elements on a
stack and a namespace scope per open element. In strict mode it rejects what is not
well-formed: tags that do not nest, a second top-level element, character data or CDATA
outside the root, a DOCTYPE after the root, a repeated attribute and an unbound prefix. In
lenient mode it recovers: a stray end tag is ignored, an end tag closes up to the nearest open
element of its name, open elements end with the input, and unbound prefixes have no
namespace. -/
namespace XmlPointer

/-- The state of a build. -/
structure Builder where
  strict : Bool
  nodes : Array Node
  /-- The open elements, innermost first; the document node is below all of them. -/
  stack : List Nat
  scopes : Scopes
  root : Option Nat
  ids : List (String × Nat)
  dtd : Markup.Dtd

namespace Builder

def text (bs : List UInt8) : String :=
  Text.Utf8.lossy bs

def start (strict : Bool) : Builder :=
  ⟨strict, #[Node.documentNode], [], Scopes.initial, none, [], {}⟩

def parent (b : Builder) : Nat :=
  b.stack.head?.getD 0

def childDepth (b : Builder) : UInt16 :=
  UInt16.ofNat (b.stack.length + 1)

/-- Links a node into the child list of `p` as its last child: after the last child there was,
or as the first. -/
def linkChild (nodes : Array Node) (p c : Nat) : Array Node :=
  let nodes := match (nodes[p]?).bind (·.lastChild) with
    | some last =>
      (nodes.modify c fun n => { n with prevSibling := some last }).modify last
        fun n => { n with nextSibling := some c }
    | none => nodes.modify p fun n => { n with firstChild := some c }
  nodes.modify p fun n => { n with lastChild := some c }

def append (b : Builder) (n : Node) : Builder :=
  { b with nodes := linkChild (b.nodes.push n) b.parent b.nodes.size }

def addLeaf (b : Builder) (kind : NodeKind) (name value : String) (offset : Nat) : Builder :=
  b.append (.unlinked kind (some b.parent) name name "" "" value #[] b.childDepth (.ofNat offset))

/-- The namespace of a prefix in the current scope: unbound, a fault in strict mode and no
namespace otherwise. -/
def resolve (b : Builder) (scopes : Scopes) (pre : String) (offset : Nat) :
    Except DocumentError String :=
  match scopes.resolve pre with
  | some uri => .ok uri
  | none => if b.strict then .error (.malformed (.unboundPrefix pre) offset) else .ok ""

/-- Records an ID value for an element unless the value is empty or already taken. -/
def recordId (ids : List (String × Nat)) (value : String) (owner : Nat) : List (String × Nat) :=
  let key := Text.trimUnicode value
  if key.isEmpty || ids.any (·.1 == key) then ids else ids ++ [(key, owner)]

/-- Stores the attributes of an element, resolving their prefixes and recording IDs. -/
def storeAttributes (b : Builder) (scopes : Scopes) (element : String) (owner offset : Nat) :
    List Markup.Attribute → List (String × Nat) → Except DocumentError (List Attr × List (String × Nat))
  | [], ids => .ok ([], ids)
  | a :: rest, ids =>
    let name := text a.name
    let value := text a.value
    let decl := a.isDeclaration
    let pre := (a.prefixPart.map text).getD ""
    let nsResult := if decl || pre.isEmpty then .ok "" else b.resolve scopes pre offset
    match nsResult with
    | .error e => .error e
    | .ok ns =>
      let isId := name == "xml:id" || name == "id" || b.dtd.idAttribute element == some name
      let ids := if isId && !decl then recordId ids value owner else ids
      match storeAttributes b scopes element owner offset rest ids with
      | .error e => .error e
      | .ok (attrs, ids) => .ok (⟨name, text a.localPart, pre, ns, value, decl⟩ :: attrs, ids)

/-- The scopes of a new element: one more scope with the element's declarations in it. -/
def declareAll (scopes : Scopes) (attrs : List Markup.Attribute) : Scopes :=
  (attrs.filter (·.isDeclaration)).foldl
    (fun s a => s.declare (if a.prefixPart.isSome then text a.localPart else "") (text a.value))
    scopes.push

/-- Opens an element for a start tag, or adds a childless one for an empty-element tag. -/
def openElement (b : Builder) (tag : Markup.StartTag) (offset : Nat) (empty : Bool) :
    Except DocumentError Builder :=
  if b.parent = 0 && b.root.isSome && b.strict then .error (.malformed .multipleRoots offset)
  else
    let scopes := declareAll b.scopes tag.attributes
    let name := text tag.name
    let parts := Markup.splitName tag.name
    let pre := (parts.1.map text).getD ""
    match b.resolve scopes pre offset with
    | .error e => .error e
    | .ok ns =>
      let id := b.nodes.size
      match b.storeAttributes scopes name id offset tag.attributes b.ids with
      | .error e => .error e
      | .ok (attrs, ids) =>
        let node := Node.unlinked .element (some b.parent) name (text parts.2) pre ns ""
          attrs.toArray b.childDepth (.ofNat offset)
        let b := { b.append node with
          ids := ids
          root := if b.parent = 0 && b.root.isNone then some id else b.root }
        .ok (if empty then { b with scopes := scopes.pop }
          else { b with scopes := scopes, stack := id :: b.stack })

/-- Closes the innermost open element. -/
def popElement (b : Builder) : Builder :=
  match b.stack with
  | _ :: rest => { b with stack := rest, scopes := b.scopes.pop }
  | [] => b

def nameOf (b : Builder) (id : Nat) : String :=
  (b.nodes[id]?.map (·.name)).getD ""

/-- Closes elements for an end tag. -/
def closeElement (b : Builder) (nameBytes : List UInt8) (offset : Nat) :
    Except DocumentError Builder :=
  let name := text nameBytes
  match b.stack with
  | top :: _ =>
    if b.nameOf top == name then .ok b.popElement
    else if b.strict then .error (.malformed (.mismatchedEndTag name (b.nameOf top)) offset)
    else
      match b.stack.findIdx? (fun id => b.nameOf id == name) with
      | some k => .ok ((List.range (k + 1)).foldl (fun b _ => b.popElement) b)
      | none => .ok b
  | [] => if b.strict then .error (.malformed (.unexpectedEndTag name) offset) else .ok b

def allBlank (bs : List UInt8) : Bool :=
  bs.all Text.isXmlBlankByte

/-- Applies one event at a byte offset. -/
def step (b : Builder) (offset : Nat) : Markup.Event → Except DocumentError Builder
  | .start tag => b.openElement tag offset false
  | .empty tag => b.openElement tag offset true
  | .finish name => b.closeElement name offset
  | .text content =>
    if b.stack.isEmpty then
      if b.strict && !allBlank content then .error (.malformed .textOutsideRoot offset)
      else .ok b
    else .ok (b.addLeaf .text "" (text content) offset)
  | .cdata content =>
    if b.stack.isEmpty then
      if b.strict then .error (.malformed .cdataOutsideRoot offset) else .ok b
    else .ok (b.addLeaf .cdata "" (text content) offset)
  | .comment content => .ok (b.addLeaf .comment "" (text content) offset)
  | .instruction target data => .ok (b.addLeaf .instruction (text target) (text data) offset)
  | .doctype content =>
    if b.root.isSome && b.strict then .error (.malformed .doctypeAfterRoot offset)
    else .ok { b with dtd := Markup.Dtd.parse content }
  | .declaration => .ok b
  | .endDocument => .ok b

/-- Applies events in order, stopping at the first fault. -/
def run (b : Builder) : List (Nat × Markup.Event) → Except DocumentError Builder
  | [] => .ok b
  | (offset, ev) :: rest =>
    match b.step offset ev with
    | .error e => .error e
    | .ok b => b.run rest

/-- The document of a finished build, with the line of every node. -/
def finish (b : Builder) (input : List UInt8) : Except DocumentError Document :=
  match b.root with
  | none => .error .noRootElement
  | some r =>
    .ok ⟨b.nodes, some r, b.ids, (linePositions input (b.nodes.toList.map (·.offset.toNat))).toArray, none⟩

end Builder

/-- The document of some bytes, built strictly or leniently. -/
def Document.parse (input : List UInt8) (strict : Bool) : Except DocumentError Document :=
  match Text.Utf8.firstInvalid input with
  | some p => .error (.invalidUtf8 p)
  | none =>
    let evs := Markup.events strict input
    match (Builder.start strict).run evs.1 with
    | .error e => .error e
    | .ok b =>
      match evs.2 with
      | some e => .error (.malformed (.lexical e.fault) e.position)
      | none =>
        match b.stack.getLast?, b.root with
        | some outer, _ =>
          if strict then .error (.malformed (.unclosed (b.nameOf outer)) input.length)
          else b.finish input
        | none, _ => b.finish input

end XmlPointer
