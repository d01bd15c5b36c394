import XmlPointer.Location.Url
import XmlPointer.Document.Error

/-! # Document identifiers

A document location is a URL when it starts with a scheme of two or more characters (so a
drive letter is a path); any other location is a file path, taken from the root directory.
The identifier of a location is its URL in normal form: a path loses its `.` segments and
folds its `..` segments, without looking at any file, and becomes a `file` URL with each
segment percent-encoded. A `file` URL with an empty host names a local file, whose path is
the decoded segments. -/
namespace XmlPointer.Location

/-- The location starts with a scheme: an ASCII letter, then letters, digits, `+`, `-` or `.`,
two characters at least, and a `:`. -/
def hasScheme (s : String) : Bool :=
  match s.toList.span (· ≠ ':') with
  | (scheme, ':' :: _) =>
    scheme.length > 1 && (scheme.head?.any Char.isAlpha) &&
      scheme.all fun c => c.isAlphanum || c = '+' || c = '-' || c = '.'
  | _ => false

/-- The names of a path from the root: empty names and `.` go, `..` removes the name before
it (nothing at the root). A relative path is taken from the root directory. -/
def pathNames (s : String) : List String :=
  (s.splitOn "/").foldl (fun acc p =>
    if p = "" || p = "." then acc else if p = ".." then acc.dropLast else acc ++ [p]) []

/-- The `file` URL of a path from the root. -/
def fileUrl (names : List String) : Url :=
  { scheme := "file", host := some (.domain "")
    path := .segments (if names.isEmpty then [""] else names.map (percentEncode inSpecialSegmentSet)) }

/-- The URL of a document location. -/
def locationUrl (loc : String) : Except DocumentError Url :=
  if loc.isEmpty then .error (.invalidLocation loc "empty location")
  else if hasScheme loc then
    match Url.parse loc with
    | .ok u => .ok u
    | .error e => .error (.invalidLocation loc e.text)
  else .ok (fileUrl (pathNames loc))

def absoluteIdentifier (loc : String) : Except DocumentError String :=
  (locationUrl loc).map Url.serialize

/-- The local path of a `file` URL; another scheme has no handler, and a `file` URL with a
host is not local. -/
def Url.filePath (u : Url) : Except DocumentError String :=
  if u.scheme ≠ "file" then .error (.unreadable (.noHandler u.serialize))
  else
    match u.host, u.path with
    | some (.domain ""), .segments segs =>
      let bytes := segs.flatMap fun s => 0x2F :: percentDecode s
      let bytes := match bytes.reverse with
        | last :: prev :: _ :: _ =>
          if (Char.ofNat prev.toNat).isAlpha && (last = 0x3A || last = 0x7C) then bytes ++ [0x2F]
          else bytes
        | _ => bytes
      .ok (Text.Utf8.lossy bytes)
    | _, _ => .error (.invalidLocation u.serialize "not a local path")

end XmlPointer.Location
