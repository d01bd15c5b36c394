import XmlPointer.Stream.Token
import XmlPointer.Document.Cursor

/-! # Reading a subtree as tokens

A node reader walks the subtree of one node with a cursor bound to it, and gives one token per
read: a start token when it enters an element (an element without children gives a single empty
start token), an end token when it leaves an element with children, and one token for each other
node. The document node gives no token: the reader goes down to its children. The top element
also carries the namespace declarations it inherits, so the stream stands alone. After each token
the reader knows the node that produced it and that node's depth below the top (the document's
children are at depth 0). -/
namespace XmlPointer

/-- Where a reader is in its life. -/
inductive ReadState where
  | initial
  | interactive
  | endOfFile
  deriving Repr, DecidableEq

/-- A token with the node that produced it and that node's depth below the top. -/
structure Emitted where
  token : StreamToken
  depth : Nat
  node : Nat
  deriving Repr, DecidableEq

namespace Document

/-- The start token of an element; the top element carries its inherited declarations. -/
def startToken (d : Document) (top id : Nat) (isEmpty : Bool) : StreamToken :=
  let attrs := (if id = top then d.inheritedDeclarations id else []) ++ d.attributePairs id
  .start ((d.name? id).getD "") (d.prefix? id) ((d.localName? id).getD "") (d.namespaceUri? id)
    attrs isEmpty

/-- The token of a node that is neither an element nor the document node. -/
def leafToken? (d : Document) (id : Nat) : Option StreamToken :=
  match d.kind? id with
  | some .text => some (.text ((d.value? id).getD ""))
  | some .cdata => some (.cdata ((d.value? id).getD ""))
  | some .comment => some (.comment ((d.value? id).getD ""))
  | some .instruction => some (.instruction ((d.name? id).getD "") ((d.value? id).getD ""))
  | _ => none

end Document

/-- What a node reader does on its next turn. -/
inductive ReaderStep where
  /-- Nothing read yet. -/
  | start
  /-- Give the token of the node under the cursor. -/
  | enter
  /-- Give the end token of the element under the cursor. -/
  | leave
  | done
  deriving Repr, DecidableEq

/-- A forward-only reader over the subtree of one node. -/
structure NodeReader where
  doc : Document
  cursor : SubtreeCursor
  step : ReaderStep
  /-- 1 when the top is the document node, whose children stand at depth 0. -/
  baseDepth : Nat
  /-- The depth of the last token read. -/
  depth : Nat
  /-- The node of the last token read. -/
  lastNode : Option Nat
  deriving Repr

namespace NodeReader

def new (d : Document) (top : Nat) : NodeReader :=
  ⟨d, .atRoot top, .start, if d.kind? top = some .document then 1 else 0, 0, none⟩

def top (r : NodeReader) : Nat :=
  r.cursor.root

/-- Moves on from the node under the cursor: to its next sibling, else up to its parent, else
to the end. -/
def advance (r : NodeReader) : NodeReader :=
  match r.cursor.nextSibling? r.doc with
  | some c => { r with cursor := c, step := .enter }
  | none =>
    match r.cursor.parent? r.doc with
    | some c => { r with cursor := c, step := .leave }
    | none => { r with step := .done }

def emit (r : NodeReader) : NodeReader :=
  { r with depth := r.cursor.depth - r.baseDepth, lastNode := some r.cursor.current }

/-- What one turn of the reading loop ends with. -/
inductive Turn where
  /-- A token, and the reader after it. -/
  | token (t : StreamToken) (r : NodeReader)
  /-- No token yet: the loop goes on with this reader. -/
  | next (r : NodeReader)
  /-- No token any more. -/
  | stop (r : NodeReader)

/-- One turn of the reading loop. -/
def turn (r : NodeReader) : Turn :=
  match r.step with
  | .done => .stop r
  | .start => .next { r with cursor := r.cursor.toRoot, step := .enter }
  | .enter =>
    let node := r.cursor.current
    match r.doc.kind? node with
    | some .document =>
      match r.cursor.firstChild? r.doc with
      | some c => .next { r with cursor := c }
      | none => .next r.advance
    | some .element =>
      match r.cursor.firstChild? r.doc with
      | some c => .token (r.doc.startToken r.top node false) { r.emit with cursor := c }
      | none => .token (r.doc.startToken r.top node true) r.emit.advance
    | some _ =>
      match r.doc.leafToken? node with
      | some t => .token t r.emit.advance
      | none => .next r.advance
    | none => .next { r with step := .done }
  | .leave =>
    let node := r.cursor.current
    if r.doc.kind? node = some .element then
      .token (.finish ((r.doc.name? node).getD "")) r.emit.advance
    else .next r.advance

/-- Reads the next token within a number of turns. -/
def readWithin : Nat → NodeReader → Option StreamToken × NodeReader
  | 0, r => (none, r)
  | n + 1, r =>
    match r.turn with
    | .token t r' => (some t, r')
    | .next r' => readWithin n r'
    | .stop r' => (none, r')

def read (r : NodeReader) : Option StreamToken × NodeReader :=
  readWithin (r.doc.size + 3) r

/-- Where the reader is in its life. -/
def readState (r : NodeReader) : ReadState :=
  match r.step with
  | .start => .initial
  | .done => .endOfFile
  | .enter | .leave => .interactive

/-- Reads tokens until none is left, at most a number of them, each with the depth and the node
it leaves the reader with. -/
def drainWithin : Nat → NodeReader → List Emitted × NodeReader
  | 0, r => ([], r)
  | n + 1, r =>
    match r.read with
    | (some t, r') =>
      let rest := drainWithin n r'
      (⟨t, r'.depth, r'.lastNode.getD r'.top⟩ :: rest.1, rest.2)
    | (none, r') => ([], r')

def drain (r : NodeReader) : List Emitted × NodeReader :=
  drainWithin (2 * r.doc.size + 1) r

end NodeReader

end XmlPointer
