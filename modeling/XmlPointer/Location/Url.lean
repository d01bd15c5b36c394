import XmlPointer.Location.Host
import XmlPointer.Text.Blank

/-! # URLs

A URL read without a base by the basic parser of the URL standard, and written back in its
normal form. The scheme is lowered. The special schemes (`ftp`, `file`, `http`, `https`, `ws`,
`wss`) have an authority and a path of segments, in which `\` separates like `/`, `.` segments
go and `..` segments remove the one before; a default port is dropped. Another scheme has an
authority after `//`, a path of segments after `/`, or else an opaque path. A `file` URL always
has a host, empty for a local file. Each part is percent-encoded by its own set. -/
namespace XmlPointer.Location

/-- The path of a URL: opaque text, or segments, each written after a `/`. -/
inductive UrlPath where
  | plain (text : String)
  | segments (list : List String)
  deriving Repr, DecidableEq

/-- A URL. -/
structure Url where
  scheme : String
  username : String := ""
  password : String := ""
  host : Option Host := none
  port : Option Nat := none
  path : UrlPath
  query : Option String := none
  fragment : Option String := none
  deriving Repr, DecidableEq

namespace Url

/-- The port a special scheme has by default. -/
def defaultPort : String → Option Nat
  | "http" | "ws" => some 80
  | "https" | "wss" => some 443
  | "ftp" => some 21
  | _ => none

def isSpecialScheme (scheme : String) : Bool :=
  ["ftp", "file", "http", "https", "ws", "wss"].contains scheme

/-- The text of a URL. -/
def serialize (u : Url) : String :=
  let authority := match u.host with
    | some h =>
      let credentials :=
        if u.username.isEmpty && u.password.isEmpty then ""
        else u.username ++ (if u.password.isEmpty then "" else ":" ++ u.password) ++ "@"
      "//" ++ credentials ++ h.serialize ++ ((u.port.map fun p => ":" ++ toString p).getD "")
    | none =>
      match u.path with
      | .segments ("" :: _ :: _) => "/."
      | _ => ""
  let path := match u.path with
    | .plain t => t
    | .segments ss => String.join (ss.map ("/" ++ ·))
  u.scheme ++ ":" ++ authority ++ path ++ ((u.query.map ("?" ++ ·)).getD "") ++
    ((u.fragment.map ("#" ++ ·)).getD "")

end Url

def isControlOrSpace (c : Char) : Bool :=
  c.toNat ≤ 0x20

def isTabOrNewline (c : Char) : Bool :=
  c = '\t' || c = '\n' || c = '\r'

/-- A two-character segment of an ASCII letter and `:` or `|`. -/
def isDriveLetter : List Char → Bool
  | [a, b] => a.isAlpha && (b = ':' || b = '|')
  | _ => false

/-- A drive letter with `:`. -/
def isNormalizedDriveLetter : List Char → Bool
  | [a, ':'] => a.isAlpha
  | _ => false

def isDoubleDot (s : String) : Bool :=
  [".." , ".%2e", "%2e.", "%2e%2e"].contains (String.ofList (s.toList.map Char.toLower))

def isSingleDot (s : String) : Bool :=
  s = "." || s.toLower = "%2e"

/-- The segments of a raw path, each with whether a separator follows it. -/
def rawSegments (isSep : Char → Bool) : List Char → List (List Char × Bool)
  | [] => [([], false)]
  | c :: cs =>
    match rawSegments isSep cs with
    | [] => []
    | (seg, more) :: rest =>
      if isSep c then ([], true) :: (seg, more) :: rest else (c :: seg, more) :: rest

/-- Adds one raw segment to a path, by the path state of the URL standard: `..` removes the
last segment (never a `file` drive letter standing alone), `.` adds nothing, and either adds an
empty segment when it ends the path. A `file` path starting with a drive letter writes it with
`:`. -/
def pushSegment (isFile : Bool) (path : List String) (seg : List Char × Bool) : List String :=
  let (raw, more) := seg
  let text := String.ofList raw
  if isDoubleDot text then
    let kept :=
      match path with
      | [d] => if isFile && isNormalizedDriveLetter d.toList then path else []
      | _ => path.dropLast
    if more then kept else kept ++ [""]
  else if isSingleDot text then
    if more then path else path ++ [""]
  else
    let raw := if isFile && path.isEmpty && isDriveLetter raw then raw.take 1 ++ [':'] else raw
    path ++ [percentEncode inPathSet (String.ofList raw)]

/-- Drops leading empty segments of a `file` path while more than one is left. -/
def dropLeadingEmpty : List String → List String
  | "" :: s :: rest => dropLeadingEmpty (s :: rest)
  | path => path

/-- The segments of a path text. -/
def parseSegments (special isFile : Bool) (text : List Char) : List String :=
  let isSep := fun c => c = '/' || (special && c = '\\')
  let path := (rawSegments isSep text).foldl (pushSegment isFile) []
  if isFile then dropLeadingEmpty path else path

/-- The path, query and fragment after the authority or scheme: the path text runs to `?` or
`#`. -/
def splitTail (cs : List Char) : List Char × Option (List Char) × Option (List Char) :=
  let (path, rest) := cs.span fun c => c ≠ '?' && c ≠ '#'
  match rest with
  | '?' :: more =>
    let (q, f) := more.span (· ≠ '#')
    (path, some q, f.tail?)
  | '#' :: more => (path, none, some more)
  | _ => (path, none, none)

/-- Fills the query and fragment of a URL. -/
def withTail (special : Bool) (u : Url) (q f : Option (List Char)) : Url :=
  let qset := if special then inSpecialQuerySet else inQuerySet
  { u with
    query := q.map fun q => percentEncode qset (String.ofList q)
    fragment := f.map fun f => percentEncode inFragmentSet (String.ofList f) }

/-- The path and what follows it, after the path start of a URL with a host. -/
def hierarchicalTail (scheme : String) (special : Bool) (u : Url) (cs : List Char) : Url :=
  let isFile := scheme = "file"
  let (path, q, f) := splitTail cs
  let path := match path with
    | c :: rest => if c = '/' || (special && c = '\\') then rest else path
    | [] => []
  let segs :=
    if special then parseSegments special isFile path
    else if (splitTail cs).1.isEmpty then [] else parseSegments special isFile path
  withTail special { u with path := .segments segs } q f

/-- The port text after `:`: digits of at most 65535; none when empty or the default. -/
def parsePort (scheme : String) (cs : List Char) : Except UrlError (Option Nat) :=
  if !cs.all Char.isDigit then throw .invalidPort
  else if cs.isEmpty then pure none
  else
    let v := cs.foldl (fun acc c => acc * 10 + (c.toNat - 0x30)) 0
    if v > 65535 then throw .invalidPort
    else if Url.defaultPort scheme = some v then pure none
    else pure (some v)

/-- The host text and the port text of `host:port`, a `:` inside brackets not counting. -/
def splitHostPort : Bool → List Char → List Char × Option (List Char)
  | _, [] => ([], none)
  | inside, c :: cs =>
    if c = ':' && !inside then ([], some cs)
    else
      let (h, p) := splitHostPort (if c = '[' then true else if c = ']' then false else inside) cs
      (c :: h, p)

/-- The username and password of credentials, split at the first `:`. -/
def credentials (cs : List Char) : String × String :=
  let (user, pass) := cs.span (· ≠ ':')
  (percentEncode inUserinfoSet (String.ofList user),
    percentEncode inUserinfoSet (String.ofList (pass.drop 1)))

/-- The URL from the authority on, for a scheme that is not `file`. -/
def parseAuthority (scheme : String) (special : Bool) (cs : List Char) : Except UrlError Url := do
  let isEnd := fun c => c = '/' || c = '?' || c = '#' || (special && c = '\\')
  let (auth, rest) := cs.span fun c => !isEnd c
  let ats := (auth.zipIdx).filter (·.1 = '@')
  let (user, pass, hostPort) ← match ats.getLast? with
    | none => pure ("", "", auth)
    | some (_, 0) =>
      if auth.length = 1 && !rest.isEmpty then throw .emptyHost else pure ("", "", auth.drop 1)
    | some (_, i) =>
      let (u, p) := credentials (auth.take i)
      pure (u, p, auth.drop (i + 1))
  let (hostText, portText) := splitHostPort false hostPort
  let hostString := String.ofList hostText
  if special && hostText.isEmpty then throw .emptyHost
  let host ← if special then parseHost hostString else parseOpaqueHost hostString
  if host = .domain "" && portText.isSome then throw .emptyHost
  let port ← match portText with
    | some p => parsePort scheme p
    | none => pure none
  pure (hierarchicalTail scheme special
    { scheme, username := user, password := pass, host := some host, port, path := .segments [] }
    rest)

/-- The URL after `file:`. -/
def parseFile (cs : List Char) : Except UrlError Url := do
  let isSlash := fun c => c = '/' || c = '\\'
  let base : Url := { scheme := "file", host := some (.domain ""), path := .segments [] }
  match cs with
  | c :: d :: rest =>
    if isSlash c && isSlash d then
      let (hostText, after) := rest.span fun c => !(isSlash c || c = '?' || c = '#')
      if isDriveLetter hostText then pure (fileTail base rest)
      else if hostText.isEmpty then pure (hierarchicalTail "file" true base after)
      else
        let host ← parseHost (String.ofList hostText)
        let host := if host = .domain "localhost" then .domain "" else host
        pure (hierarchicalTail "file" true { base with host := some host } after)
    else if isSlash c then pure (fileTail base (d :: rest))
    else pure (fileTail base cs)
  | [c] => pure (fileTail base (if isSlash c then [] else [c]))
  | [] => pure (fileTail base [])
where
  -- the path state of a `file` URL, on text with no leading separator left
  fileTail (base : Url) (cs : List Char) : Url :=
    let (path, q, f) := splitTail cs
    withTail true { base with path := .segments (parseSegments true true path) } q f

/-- The scheme of a URL text and the text after its `:`. -/
def splitScheme (cs : List Char) : Option (String × List Char) :=
  match cs with
  | c :: _ =>
    if c.isAlpha then
      let (scheme, rest) := cs.span fun c => c.isAlphanum || c = '+' || c = '-' || c = '.'
      match rest with
      | ':' :: after => some (String.ofList (scheme.map Char.toLower), after)
      | _ => none
    else none
  | [] => none

/-- The URL of a text, read without a base. -/
def Url.parse (s : String) : Except UrlError Url := do
  let cs := ((Text.trimBy isControlOrSpace s.toList).filter fun c => !isTabOrNewline c)
  let some (scheme, rest) := splitScheme cs | throw .relativeWithoutBase
  if scheme = "file" then parseFile rest
  else if Url.isSpecialScheme scheme then
    parseAuthority scheme true (rest.dropWhile fun c => c = '/' || c = '\\')
  else
    match rest with
    | '/' :: '/' :: more => parseAuthority scheme false more
    | '/' :: more =>
      let (path, q, f) := splitTail more
      pure (withTail false { scheme, path := .segments (parseSegments false false path) } q f)
    | _ =>
      let (path, q, f) := splitTail rest
      pure (withTail false { scheme, path := .plain (percentEncode inControlSet (String.ofList path)) } q f)

end XmlPointer.Location
