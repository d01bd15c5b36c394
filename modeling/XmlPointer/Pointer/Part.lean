import XmlPointer.Pointer.Error

/-! # Parts of a scheme-based pointer

A scheme-based pointer is a sequence of parts: `element()` with an optional ID and 1-based
child element positions, `xmlns()` binding a prefix for the parts after it, and the XPath
expressions of `xpath1()` and `xpointer()`. Each part is written back with `^`, `(` and `)`
escaped in its payload, so that reading the written form gives the same part. -/
namespace XmlPointer

/-- One part of a scheme-based pointer. -/
inductive Part where
  | element (name : Option String) (positions : List Nat)
  | xmlns (pre uri : String)
  | xpath1 (expression : String)
  | xpointer (expression : String)
  deriving Repr, DecidableEq

/-- Escapes `^`, `(` and `)` with `^` for a scheme payload. -/
def escapePayload (s : String) : String :=
  String.join (s.toList.map fun c =>
    if c = '^' || c = '(' || c = ')' then "^" ++ c.toString else c.toString)

namespace Part

/-- The XPath expression of an `element()` part: the element with the ID, or the document
node, then the child element at each position. -/
def elementExpression (name : Option String) (positions : List Nat) : String :=
  (name.map fun n => "id('" ++ n ++ "')").getD "" ++
    String.join (positions.map fun p => "/*[" ++ toString p ++ "]")

/-- The expression a part evaluates; none for `xmlns()`. -/
def expression? : Part → Option String
  | .element n ps => some (elementExpression n ps)
  | .xmlns .. => none
  | .xpath1 e | .xpointer e => some e

/-- The name of a part's scheme. -/
def schemeName : Part → String
  | .element .. => "element"
  | .xmlns .. => "xmlns"
  | .xpath1 _ => "xpath1"
  | .xpointer _ => "xpointer"

def elementPayload (name : Option String) (positions : List Nat) : String :=
  name.getD "" ++ String.join (positions.map fun p => "/" ++ toString p)

/-- A part as written in a pointer. -/
def display : Part → String
  | .xmlns p u => "xmlns(" ++ p ++ "=" ++ escapePayload u ++ ")"
  | .element n ps => "element(" ++ elementPayload n ps ++ ")"
  | .xpath1 e => "xpath1(" ++ escapePayload e ++ ")"
  | .xpointer e => "xpointer(" ++ escapePayload e ++ ")"

end Part

/-- A parsed pointer. -/
inductive Pointer where
  /-- A bare name, resolved through the document's IDs. -/
  | shorthand (name : String)
  /-- Scheme parts in the order given, with the text they were read from. -/
  | schemeBased (parts : List Part) (text : String)
  deriving Repr, DecidableEq

namespace Pointer

/-- The parts of a pointer; none for a shorthand. -/
def parts : Pointer → List Part
  | .shorthand _ => []
  | .schemeBased ps _ => ps

/-- A pointer as written: the name, or the text it was read from. -/
def display : Pointer → String
  | .shorthand n => n
  | .schemeBased _ t => t

end Pointer

end XmlPointer
