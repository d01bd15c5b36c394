import XmlPointer.Stream.Source
import XmlPointer.Stream.NodeReader
import XmlPointer.Pointer.Eval

/-! # Pointer readers

A pointer reader streams every item a pointer selects in a document, one after another, as one
stream of tokens: a node as the tokens of its subtree, an attribute value as one text token.
Resolving is done at once when the reader starts or restarts, in this order: the pointer is
parsed, the document is had from its source, and the pointer is evaluated from the document
node. When one of them fails the reader is finished and holds no document. -/
namespace XmlPointer

/-- Where a pointer reader stands. -/
inductive Phase where
  | resolving
  | streaming
  | advancing
  | finished
  deriving Repr, DecidableEq

/-- Why a pointer reader could not start. -/
inductive ReaderError where
  | pointer (e : PointerError)
  | document (e : DocumentError)
  deriving Repr

/-- The reader of the current item: a subtree, or a value not yet read. -/
inductive MatchReader where
  | node (r : NodeReader)
  | value (v : Option String)
  deriving Repr

namespace MatchReader

/-- Reads the next token of the item. -/
def read : MatchReader → Option StreamToken × MatchReader
  | .node r =>
    let (t, r') := r.read
    (t, .node r')
  | .value v => (v.map .text, .value none)

/-- The depth of the last token read; a value is at depth 0. -/
def depth : MatchReader → Nat
  | .node r => r.depth
  | .value _ => 0

end MatchReader

/-- A reader of the items a pointer selects. -/
structure PointerReader where
  settings : ReaderSettings
  phase : Phase := .finished
  pointer : Option Pointer := none
  document : Option SharedDocument := none
  selection : Option NodeSequence := none
  current : Option MatchReader := none
  started : Bool := false
  deriving Repr

namespace PointerReader

/-- Opens a reader on the current item, or finishes when there is none. -/
def openCurrent (r : PointerReader) : PointerReader :=
  let reader := match r.selection.bind NodeSequence.current, r.document with
    | some (.node n), some d => some (MatchReader.node (NodeReader.new d.doc n))
    | some (.attribute v), some _ => some (.value (some v))
    | _, _ => none
  { r with current := reader, phase := if reader.isSome then .streaming else .finished }

/-- Resolves a pointer in the document of a source, from a state that holds nothing. -/
def resolve (r : PointerReader) (src : Source) (text : String) (live : List Nat) (s : Store) :
    Except ReaderError PointerReader × Store :=
  match Pointer.parse text with
  | .error e => (.error (.pointer e), s)
  | .ok p =>
    match src.materialize r.settings live s with
    | (.error e, s') => (.error (.document e), s')
    | (.ok d, s') =>
      match p.evaluate d.doc 0 with
      | .error e => (.error (.pointer e), s')
      | .ok items =>
        (.ok { r with pointer := some p, document := some d, selection := some ⟨items, 0⟩ }, s')

/-- Starts over on a pointer and a source; a failure leaves the reader finished. -/
def restart (r : PointerReader) (src : Source) (text : String) (live : List Nat) (s : Store) :
    Except ReaderError Unit × PointerReader × Store :=
  let cleared : PointerReader := { settings := r.settings, phase := .resolving }
  match cleared.resolve src text live s with
  | (.ok r', s') => (.ok (), r'.openCurrent, s')
  | (.error e, s') => (.error e, { cleared with phase := .finished }, s')

/-- A reader started on a pointer and a source. -/
def start (settings : ReaderSettings) (src : Source) (text : String) (live : List Nat) (s : Store) :
    Except ReaderError PointerReader × Store :=
  match PointerReader.restart { settings } src text live s with
  | (.ok (), r, s') => (.ok r, s')
  | (.error e, _, s') => (.error e, s')

/-- Reads the next token, moving on to the next item when one is done, taking at most `fuel`
steps. -/
def readFrom : Nat → PointerReader → Option StreamToken × PointerReader
  | 0, r => (none, r)
  | fuel + 1, r =>
    match r.phase with
    | .resolving | .finished => (none, r)
    | .streaming =>
      match r.current.map MatchReader.read with
      | some (some t, m) => (some t, { r with current := some m })
      | some (none, m) => readFrom fuel { r with current := some m, phase := .advancing }
      | none => readFrom fuel { r with phase := .advancing }
    | .advancing =>
      match r.selection.map NodeSequence.moveNext with
      | some (true, m) => readFrom fuel ({ r with selection := some m }).openCurrent
      | some (false, m) => (none, { r with selection := some m, current := none, phase := .finished })
      | none => (none, { r with current := none, phase := .finished })

def readFuel (r : PointerReader) : Nat :=
  3 * ((r.selection.map (·.items.length)).getD 0) + 4

def read (r : PointerReader) : Option StreamToken × PointerReader :=
  readFrom r.readFuel { r with started := true }

/-- Reads up to `n` tokens. -/
def readMany : Nat → PointerReader → List StreamToken × PointerReader
  | 0, r => ([], r)
  | n + 1, r =>
    match r.read with
    | (some t, r') =>
      let (ts, r'') := readMany n r'
      (t :: ts, r'')
    | (none, r') => ([], r')

def depth (r : PointerReader) : Nat :=
  (r.current.map MatchReader.depth).getD 0

def readState (r : PointerReader) : ReadState :=
  if r.phase = .finished then .endOfFile else if r.started then .interactive else .initial

def isEof (r : PointerReader) : Bool :=
  r.readState = .endOfFile

def matchCount (r : PointerReader) : Nat :=
  (r.selection.map (·.items.length)).getD 0

/-- The node being streamed, while an item is. -/
def currentMatch (r : PointerReader) : Option Nat :=
  match r.phase with
  | .streaming | .advancing => r.selection.bind NodeSequence.currentNode
  | _ => none

/-- The line and column of the node of the last token read; none for a value. -/
def linePosition (r : PointerReader) : Option (Nat × Nat) :=
  match r.current, r.document with
  | some (.node m), some d => m.lastNode.bind d.doc.line?
  | _, _ => none

def baseUri (r : PointerReader) : Option String :=
  r.document.bind (·.doc.baseUri)

def handle? (r : PointerReader) : Option Nat :=
  r.document.map (·.handle)

def doc? (r : PointerReader) : Option Document :=
  r.document.map (·.doc)

/-- Enough reads to drain a reader: every node of every item gives at most two tokens. -/
def drainFuel (r : PointerReader) : Nat :=
  let nodes := ((r.doc?.map Document.size).getD 0) + 1
  2 * nodes * (r.matchCount + 1) + 2

/-- The markup of every token left. -/
def writeRemaining (r : PointerReader) : String × PointerReader :=
  let (ts, r') := readMany r.drainFuel r
  (String.join (ts.map StreamToken.xml), r')

end PointerReader

end XmlPointer
