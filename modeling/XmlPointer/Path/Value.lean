import XmlPointer.Path.Number
import XmlPointer.Document.Basic
import XmlPointer.Path.Error

/-! # Values of XPath

A value is a node-set, a boolean, a number or a string, as in XPath 1.0, or the list of
values that the attribute axis selects (attributes are not nodes of the document). Each
converts to the three scalar types: a node-set by the string value of its first node, a list
by its first value. -/
namespace XmlPointer.Path

/-- An XPath value. -/
inductive Value where
  /-- Nodes in document order, each once. -/
  | nodes (ids : List Nat)
  | boolean (b : Bool)
  | number (v : Float)
  | string (s : String)
  /-- Values selected on the attribute axis, in document order. -/
  | strings (values : List String)
  deriving Repr, Inhabited

namespace Value

/-- The name of the value's type, as errors give it. -/
def typeName : Value → String
  | .nodes _ => "node-set"
  | .boolean _ => "boolean"
  | .number _ => "number"
  | .string _ => "string"
  | .strings _ => "attribute values"

/-- The boolean of a value: a number is true unless zero or NaN, anything else unless
empty. -/
def toBoolean : Value → Bool
  | .nodes ids => !ids.isEmpty
  | .boolean b => b
  | .number v => v != 0 && !v.isNaN
  | .string s => !s.isEmpty
  | .strings vs => !vs.isEmpty

/-- The string of a value. -/
def toText (d : Document) : Value → String
  | .nodes ids => (ids.head?.map d.stringValue).getD ""
  | .boolean b => if b then "true" else "false"
  | .number v => numberText v
  | .string s => s
  | .strings vs => vs.head?.getD ""

/-- The number of a value: a boolean is 1 or 0, anything else reads its string. -/
def toNumber (d : Document) : Value → Float
  | .number v => v
  | .boolean b => if b then 1 else 0
  | v => parseNumber (v.toText d)

/-- The nodes of a node-set; any other value is refused with its type. -/
def toNodes : Value → Except PathError (List Nat)
  | .nodes ids => .ok ids
  | v => .error (.notNodeSet v.typeName)

/-- The string values of a node-set or the values of a list; none for a scalar. -/
def atoms (d : Document) : Value → Option (List String)
  | .nodes ids => some (ids.map d.stringValue)
  | .strings vs => some vs
  | _ => none

end Value

end XmlPointer.Path
