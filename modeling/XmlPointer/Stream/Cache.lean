import XmlPointer.Document.Basic

/-! # Document caches

A cache maps identifiers to documents without keeping any of them alive: an entry counts only
while some reader holds its document, and a dead entry is a miss. Entries are kept most
recently used first, at most `capacity` of them; storing a new identifier into a full cache
drops the least recently used entry, live or not. Liveness is given by the handles of the
documents that are held. -/
namespace XmlPointer

/-- A document with an identity: two holders share a document iff their handles agree. -/
structure SharedDocument where
  handle : Nat
  doc : Document
  deriving Repr

/-- A weak cache of documents by identifier, most recently used first. -/
structure DocumentCache where
  capacity : Nat
  entries : List (String × SharedDocument)
  deriving Repr

namespace DocumentCache

def empty (capacity : Nat) : DocumentCache :=
  ⟨capacity, []⟩

def erase (c : DocumentCache) (uri : String) : DocumentCache :=
  { c with entries := c.entries.filter (·.1 != uri) }

def store (c : DocumentCache) (uri : String) (d : SharedDocument) : DocumentCache :=
  { c with entries := ((uri, d) :: (c.erase uri).entries).take c.capacity }

/-- Looks an identifier up: a live entry becomes the most recently used one, a dead one is
removed. -/
def lookup (c : DocumentCache) (live : List Nat) (uri : String) :
    Option SharedDocument × DocumentCache :=
  match c.entries.find? (·.1 == uri) with
  | none => (none, c)
  | some (_, d) =>
    if live.contains d.handle then (some d, { c with entries := (uri, d) :: (c.erase uri).entries })
    else (none, c.erase uri)

/-- The cache after materializing a document for an identifier: the document stored under it, or
the cache as it was when materializing failed. -/
def storeOutcome {ε : Type} (c : DocumentCache) (uri : String) : Except ε SharedDocument → DocumentCache
  | .ok d => c.store uri d
  | .error _ => c

/-- The live document cached under an identifier, or what `materialize` gives, which is stored
under the identifier when it is a document. `materialize` runs only when the lookup finds no live
entry. -/
def getOrMaterialize {m : Type → Type} [Monad m] {ε : Type} (c : DocumentCache) (live : List Nat)
    (uri : String) (materialize : m (Except ε SharedDocument)) :
    m (Except ε SharedDocument × DocumentCache) :=
  match c.lookup live uri with
  | (some d, c) => pure (.ok d, c)
  | (none, c) => do
    let r ← materialize
    pure (r, c.storeOutcome uri r)

def liveCount (c : DocumentCache) (live : List Nat) : Nat :=
  (c.entries.filter fun e => live.contains e.2.handle).length

/-- Removes the dead entries, with their number. -/
def purge (c : DocumentCache) (live : List Nat) : Nat × DocumentCache :=
  let (kept, dead) := c.entries.partition fun e => live.contains e.2.handle
  (dead.length, { c with entries := kept })

def clear (c : DocumentCache) : DocumentCache :=
  { c with entries := [] }

end DocumentCache

end XmlPointer
