import XmlPointer.Stream.Cache
import XmlPointer.Stream.FileStore
import XmlPointer.Location.Identifier
import XmlPointer.Document.Build

/-! # Document sources

A reader's document comes from a document already held, from bytes with or without a base
URI, or from a location. Bytes without a base URI are always parsed anew. Bytes with a base URI
and locations are named by their identifier: when caching is on, a live document cached under
that identifier is taken as it is (the new bytes, or the file, are not read), and a document
parsed anew is cached under it, with the identifier as its base URI. -/
namespace XmlPointer

/-- Where a reader's document comes from. -/
inductive Source where
  | document (d : SharedDocument)
  | stream (bytes : List UInt8) (baseUri : Option String)
  | location (loc : String)
  deriving Repr

/-- The cache that a reader uses. -/
inductive CacheChoice where
  | global
  | session
  deriving Repr, DecidableEq

/-- How a reader builds its documents. -/
structure ReaderSettings where
  useCache : Bool := true
  strict : Bool := true
  cache : CacheChoice := .global
  deriving Repr, DecidableEq

/-- What building a document can read and change: the files, both caches, and the number of
documents built so far, which gives each new document its handle. -/
structure Store where
  files : FileStore
  globalCache : DocumentCache
  sessionCache : DocumentCache
  built : Nat := 0
  deriving Repr

namespace Store

def init (files : FileStore) (sessionCapacity : Nat) : Store :=
  { files, globalCache := .empty 64, sessionCache := .empty (max 1 sessionCapacity) }

/-- The cache a reader chose. -/
def cacheOf (s : Store) : CacheChoice → DocumentCache
  | .global => s.globalCache
  | .session => s.sessionCache

/-- The store with the chosen cache replaced. -/
def setCache (s : Store) : CacheChoice → DocumentCache → Store
  | .global, c => { s with globalCache := c }
  | .session, c => { s with sessionCache := c }

def share (s : Store) (d : Document) : SharedDocument × Store :=
  (⟨s.built, d⟩, { s with built := s.built + 1 })

end Store

/-- The identifier of a source: the base URI of a held document as it is, the identifier of
a base URI or of a location, and none for bytes without a base URI. -/
def Source.identifier : Source → Except DocumentError (Option String)
  | .document d => .ok d.doc.baseUri
  | .stream _ none => .ok none
  | .stream _ (some b) => (Location.absoluteIdentifier b).map some
  | .location l => (Location.absoluteIdentifier l).map some

/-- A document parsed anew and given its handle. -/
def buildShared (s : Store) (make : Store → Except DocumentError Document) :
    Except DocumentError SharedDocument × Store :=
  match make s with
  | .ok d =>
    let (shared, s') := s.share d
    (.ok shared, s')
  | .error e => (.error e, s)

/-- The document named by an identifier: the live cached one, or one built and cached under
it; without caching, one built anew. -/
def cachedDocument (settings : ReaderSettings) (live : List Nat) (s : Store) (id : String)
    (make : Store → Except DocumentError Document) : Except DocumentError SharedDocument × Store :=
  if settings.useCache then
    let ((r, cache), s') := ((s.cacheOf settings.cache).getOrMaterialize live id
      (modifyGet (buildShared · make) : StateM Store (Except DocumentError SharedDocument))).run s
    (r, s'.setCache settings.cache cache)
  else buildShared s make

/-- The document of a source, the handles in `live` being those of the documents held. -/
def Source.materialize (src : Source) (settings : ReaderSettings) (live : List Nat) (s : Store) :
    Except DocumentError SharedDocument × Store :=
  match src with
  | .document d => (.ok d, s)
  | .stream bytes none => buildShared s fun _ => Document.parse bytes settings.strict
  | .stream bytes (some base) =>
    match Location.absoluteIdentifier base with
    | .error e => (.error e, s)
    | .ok id =>
      cachedDocument settings live s id fun _ =>
        (Document.parse bytes settings.strict).map fun d => { d with baseUri := some id }
  | .location loc =>
    match Location.locationUrl loc with
    | .error e => (.error e, s)
    | .ok url =>
      let id := url.serialize
      cachedDocument settings live s id fun s => do
        let path ← Location.Url.filePath url
        let bytes ← (s.files.read path).mapError .unreadable
        let d ← Document.parse bytes settings.strict
        pure { d with baseUri := some id }

end XmlPointer
