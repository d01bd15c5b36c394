import XmlPointer.Document.Scope

/-! # Prefix bindings for expressions

The prefixes that qualified name tests may use, each bound to a namespace URI. A later binding
of a prefix shadows an earlier one, and `xml` is bound to its namespace unless a binding says
otherwise. -/
namespace XmlPointer.Path

/-- Prefix bindings, in the order they were made. -/
structure Bindings where
  declared : List (String × String) := []
  deriving Repr, DecidableEq

namespace Bindings

def xmlOnly : Bindings := {}

def declare (b : Bindings) (pre uri : String) : Bindings :=
  ⟨b.declared ++ [(pre, uri)]⟩

/-- The URI of a prefix: the latest binding of it, or the XML namespace for `xml`. -/
def lookup (b : Bindings) (pre : String) : Option String :=
  match b.declared.reverse.find? (·.1 == pre) with
  | some (_, uri) => some uri
  | none => if pre = "xml" then some xmlNamespace else none

end Bindings

end XmlPointer.Path
