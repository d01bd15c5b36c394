import XmlPointer.Document.Error

/-! # A store of files

Files and directories named by their paths from the root, each path a list of names. Writing
a file makes every directory above it. Reading walks an absolute path name by name the way a
file system resolves it: `.` stays, `..` goes up, a file cannot be passed through, and a path
that ends in `/` names a directory. -/
namespace XmlPointer

/-- Directories and files by their paths from the root; the root is always a directory. -/
structure FileStore where
  directories : List (List String) := []
  files : List (List String × List UInt8) := []
  deriving Repr

namespace FileStore

def names (path : String) : List String :=
  (path.splitOn "/").filter (· ≠ "")

def parents (ns : List String) : List (List String) :=
  (List.range ns.length).map ns.take

def isDirectory (s : FileStore) (ns : List String) : Bool :=
  ns.isEmpty || s.directories.contains ns

def file? (s : FileStore) (ns : List String) : Option (List UInt8) :=
  (s.files.find? (·.1 == ns)).map (·.2)

/-- The store with a directory and the directories above it. -/
def makeDirectory (s : FileStore) (path : String) : FileStore :=
  let ns := names path
  { s with directories := s.directories ++ ((parents ns ++ [ns]).filter fun p => !s.isDirectory p) }

/-- The store with a file written, and the directories above it. -/
def write (s : FileStore) (path : String) (bytes : List UInt8) : FileStore :=
  let ns := names path
  let dirs := (parents ns).filter fun p => !s.isDirectory p
  { s with
    directories := s.directories ++ dirs
    files := (s.files.filter (·.1 != ns)) ++ [(ns, bytes)] }

/-- Removes a file; false when there is none at the path. -/
def remove (s : FileStore) (path : String) : Bool × FileStore :=
  let ns := names path
  match s.file? ns with
  | some _ => (true, { s with files := s.files.filter (·.1 != ns) })
  | none => (false, s)

/-- Walks the names of a path from a directory. -/
def walk (s : FileStore) (trailingSlash : Bool) : List String → List String →
    Except ReadFailure (List UInt8)
  | here, [] =>
    match s.file? here with
    | some bytes => if trailingSlash then .error .notDirectory else .ok bytes
    | none => if s.isDirectory here then .error .isDirectory else .error .notFound
  | here, n :: rest =>
    if (s.file? here).isSome then .error .notDirectory
    else if !s.isDirectory here then .error .notFound
    else if n = "." then walk s trailingSlash here rest
    else if n = ".." then walk s trailingSlash here.dropLast rest
    else walk s trailingSlash (here ++ [n]) rest

def read (s : FileStore) (path : String) : Except ReadFailure (List UInt8) :=
  s.walk (path.endsWith "/") [] (names path)

end FileStore

end XmlPointer
