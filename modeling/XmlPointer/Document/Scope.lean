/-! # Namespace scopes

The prefix bindings in scope while a document is built. Each element opens a scope, and the
declarations made in it end with it. `xml` and `xmlns` are bound from the start and cannot be
bound again. The empty prefix is the default namespace: unbound, it resolves to no namespace,
while any other unbound prefix, or one bound to the empty URI, does not resolve at all. -/
namespace XmlPointer

def xmlNamespace : String := "http://www.w3.org/XML/1998/namespace"

def xmlnsNamespace : String := "http://www.w3.org/2000/xmlns/"

/-- A binding of a prefix (empty for the default namespace) to a URI (empty to undeclare),
made in the scope at `depth`. -/
structure Binding where
  prefixName : String
  uri : String
  depth : UInt16
  deriving Repr, DecidableEq

/-- The bindings in scope, innermost first, and the count of open scopes, a 16-bit counter. -/
structure Scopes where
  bindings : List Binding
  depth : UInt16
  deriving Repr, DecidableEq

namespace Scopes

def initial : Scopes :=
  ⟨[⟨"xmlns", xmlnsNamespace, 0⟩, ⟨"xml", xmlNamespace, 0⟩], 0⟩

def push (s : Scopes) : Scopes :=
  { s with depth := s.depth + 1 }

/-- Closes the innermost scope: drops the bindings in front made at its depth or deeper, but
never those at depth 0, and counts one scope less, stopping at 0. -/
def pop (s : Scopes) : Scopes :=
  ⟨s.bindings.dropWhile (fun b => decide (b.depth ≥ s.depth) && decide (b.depth > 0)),
    if s.depth = 0 then 0 else s.depth - 1⟩

/-- Binds a prefix in the innermost scope; `xml` and `xmlns` keep their binding. -/
def declare (s : Scopes) (pre uri : String) : Scopes :=
  if pre = "xml" || pre = "xmlns" then s
  else { s with bindings := ⟨pre, uri, s.depth⟩ :: s.bindings }

/-- The URI a prefix resolves to; `none` when it is unbound. -/
def resolve (s : Scopes) (pre : String) : Option String :=
  let found := (s.bindings.find? (·.prefixName == pre)).map (·.uri)
  if pre.isEmpty then some (found.getD "") else found.filter (!·.isEmpty)

end Scopes

end XmlPointer
