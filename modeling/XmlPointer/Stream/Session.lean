import XmlPointer.Stream.Reader

/-! # Reader sessions

A session holds pointer readers in numbered slots, a store of files, the global cache and a
cache of its own. It runs steps one at a time and answers each; no step ends the session. A
document is live while a reader in some slot holds it, which decides what the caches give. A
step on an empty slot answers that there is no such reader and changes nothing. -/
namespace XmlPointer

/-- Where an opening or restarting step takes its document from. -/
inductive SourceSpec where
  /-- The document of the reader in a slot. -/
  | heldBy (slot : Nat)
  | location (loc : String)
  | bytes (data : List UInt8) (baseUri : Option String)
  deriving Repr

/-- One step of a session. -/
inductive SessionStep where
  | openReader (slot : Nat) (src : SourceSpec) (pointer : String) (settings : ReaderSettings)
  | restart (slot : Nat) (src : SourceSpec) (pointer : String)
  | read (slot n : Nat)
  | readBrief (slot n : Nat)
  | readXml (slot : Nat)
  | state (slot : Nat)
  | drop (slot : Nat)
  | sameDoc (slot other : Nat)
  | cacheInsert (uri : String) (source : Nat)
  | cacheGet (uri : String) (global : Bool)
  | globalCacheLen
  | cacheLen
  | cachePurge
  | cacheClear
  | cacheCapacity
  | writeFile (path : String) (bytes : List UInt8)
  | removeFile (path : String)
  deriving Repr

/-- What a reader shows of itself. -/
structure ReaderView where
  phase : Phase
  readState : ReadState
  matchCount : Nat
  currentMatch : Option Nat
  depth : Nat
  line : Option (Nat × Nat)
  pointer : Option String
  baseUri : Option String
  deriving Repr, DecidableEq

def ReaderView.isEof (v : ReaderView) : Bool :=
  v.readState = .endOfFile

/-- The view of a reader. -/
def PointerReader.view (r : PointerReader) : ReaderView :=
  { phase := r.phase, readState := r.readState, matchCount := r.matchCount
    currentMatch := r.currentMatch, depth := r.depth, line := r.linePosition
    pointer := r.pointer.map Pointer.display, baseUri := r.baseUri }

/-- A token read, with the depth, line and current match right after it. -/
structure TokenRead where
  token : StreamToken
  depth : Nat
  line : Option (Nat × Nat)
  currentMatch : Option Nat
  deriving Repr, DecidableEq

/-- A token read in brief: its name, whether it opens an element, and whether the reader then
knows a line. -/
structure BriefRead where
  name : Option String
  isStart : Bool
  hasLine : Bool
  deriving Repr, DecidableEq

/-- The answer to a step. -/
inductive StepResult where
  | noSuchReader
  | view (v : ReaderView)
  | failed (e : ReaderError)
  | restartFailed (e : ReaderError) (v : ReaderView)
  | tokens (reads : List TokenRead) (v : ReaderView)
  | brief (reads : List BriefRead) (hasLine : Bool)
  | markup (xml : String) (v : ReaderView)
  | dropped (existed : Bool)
  | same (shared : Bool)
  | cacheSize (len : Nat)
  | cacheCount (len : Nat)
  | purged (count : Nat)
  | done
  | capacity (n : Nat)
  | lookup (hit : Bool) (rootName : Option String)
  | removed (existed : Bool)
  deriving Repr

/-- The readers of a session by slot, and its store. -/
structure Session where
  readers : List (Nat × PointerReader) := []
  store : Store
  deriving Repr

namespace Session

def init (files : FileStore) (sessionCapacity : Nat) : Session :=
  { store := Store.init files sessionCapacity }

def reader? (s : Session) (slot : Nat) : Option PointerReader :=
  (s.readers.find? (·.1 == slot)).map (·.2)

def erase (s : Session) (slot : Nat) : Session :=
  { s with readers := s.readers.filter (·.1 != slot) }

def put (s : Session) (slot : Nat) (r : PointerReader) : Session :=
  { s with readers := (s.erase slot).readers ++ [(slot, r)] }

def live (s : Session) : List Nat :=
  s.readers.filterMap (·.2.handle?)

/-- The source of a step, if the slot it names holds a document. -/
def source? (s : Session) : SourceSpec → Option Source
  | .heldBy slot => (s.reader? slot).bind (·.document) |>.map .document
  | .location loc => some (.location loc)
  | .bytes data base => some (.stream data base)

/-- Reads up to `n` tokens, each with what the reader shows after it. -/
def readTokens : Nat → PointerReader → List TokenRead × PointerReader
  | 0, r => ([], r)
  | n + 1, r =>
    match r.read with
    | (some t, r') =>
      let (rest, r'') := readTokens n r'
      (⟨t, r'.depth, r'.linePosition, r'.currentMatch⟩ :: rest, r'')
    | (none, r') => ([], r')

/-- Reads up to `n` tokens in brief. -/
def readBriefly : Nat → PointerReader → List BriefRead × PointerReader
  | 0, r => ([], r)
  | n + 1, r =>
    match r.read with
    | (some t, r') =>
      let (rest, r'') := readBriefly n r'
      (⟨t.name?, t.isStart, r'.linePosition.isSome⟩ :: rest, r'')
    | (none, r') => ([], r')

/-- Runs a step on the reader in a slot. -/
def withReader (s : Session) (slot : Nat) (f : PointerReader → StepResult × PointerReader) :
    StepResult × Session :=
  match s.reader? slot with
  | none => (.noSuchReader, s)
  | some r =>
    let (res, r') := f r
    (res, s.put slot r')

def setSessionCache (s : Session) (c : DocumentCache) : Session :=
  { s with store := { s.store with sessionCache := c } }

/-- Runs one step. -/
def step (s : Session) : SessionStep → StepResult × Session
  | .openReader slot spec text settings =>
    match s.source? spec with
    | none => (.noSuchReader, s)
    | some src =>
      let s := s.erase slot
      match PointerReader.start settings src text s.live s.store with
      | (.ok r, store) => (.view r.view, { s with store }.put slot r)
      | (.error e, store) => (.failed e, { s with store })
  | .restart slot spec text =>
    match s.reader? slot, s.source? spec with
    | some r, some src =>
      let others := s.erase slot
      match r.restart src text others.live s.store with
      | (.ok (), r', store) => (.view r'.view, { s with store }.put slot r')
      | (.error e, r', store) => (.restartFailed e r'.view, { s with store }.put slot r')
    | _, _ => (.noSuchReader, s)
  | .read slot n => s.withReader slot fun r =>
    let (reads, r') := readTokens n r
    (.tokens reads r'.view, r')
  | .readBrief slot n => s.withReader slot fun r =>
    let (reads, r') := readBriefly n r
    (.brief reads r'.linePosition.isSome, r')
  | .readXml slot => s.withReader slot fun r =>
    let (xml, r') := r.writeRemaining
    (.markup xml r'.view, r')
  | .state slot => s.withReader slot fun r => (.view r.view, r)
  | .drop slot => (.dropped (s.reader? slot).isSome, s.erase slot)
  | .sameDoc slot other =>
    match s.reader? slot, s.reader? other with
    | some a, some b =>
      (.same (match a.handle?, b.handle? with
        | some x, some y => x == y
        | _, _ => false), s)
    | _, _ => (.noSuchReader, s)
  | .cacheInsert uri source =>
    match (s.reader? source).bind (·.document) with
    | none => (.noSuchReader, s)
    | some d =>
      let c := s.store.sessionCache.store uri d
      (.cacheSize (c.liveCount s.live), s.setSessionCache c)
  | .cacheGet uri global =>
    let choice := if global then CacheChoice.global else .session
    let (hit, c) := (s.store.cacheOf choice).lookup s.live uri
    (.lookup hit.isSome (hit.bind fun d => d.doc.root.bind d.doc.name?),
      { s with store := s.store.setCache choice c })
  | .globalCacheLen => (.cacheSize (s.store.globalCache.liveCount s.live), s)
  | .cacheLen => (.cacheCount (s.store.sessionCache.liveCount s.live), s)
  | .cachePurge =>
    let (n, c) := s.store.sessionCache.purge s.live
    (.purged n, s.setSessionCache c)
  | .cacheClear => (.done, s.setSessionCache s.store.sessionCache.clear)
  | .cacheCapacity => (.capacity s.store.sessionCache.capacity, s)
  | .writeFile path bytes =>
    (.done, { s with store := { s.store with files := s.store.files.write path bytes } })
  | .removeFile path =>
    let (existed, files) := s.store.files.remove path
    (.removed existed, { s with store := { s.store with files } })

/-- Runs steps in turn, with the answer to each. -/
def run (s : Session) : List SessionStep → List StepResult
  | [] => []
  | st :: rest =>
    let (res, s') := s.step st
    res :: s'.run rest

end Session

end XmlPointer
