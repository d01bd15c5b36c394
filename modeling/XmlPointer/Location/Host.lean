import XmlPointer.Location.Percent
import XmlPointer.Location.Domain

/-! # Hosts of URLs

The host of a URL is a domain, an IPv4 address or an IPv6 address; the host of a URL whose
scheme is not special is opaque text, kept as a domain. A domain is written in ASCII by the IDNA
processing of the URL standard. A domain that ends in a number is read as an IPv4 address, whose
parts may be decimal, octal (a leading `0`) or hexadecimal (`0x`). IPv6 addresses are written in lowercase with the longest run of two or
more zero pieces compressed. -/
namespace XmlPointer.Location

/-- Why a text is not a URL, in the words of the URL standard's failures. -/
inductive UrlError where
  | emptyHost
  | internationalDomain
  | invalidPort
  | invalidIpv4
  | invalidIpv6
  | invalidDomainChar
  | relativeWithoutBase
  deriving Repr, DecidableEq

/-- The text of a URL failure. -/
def UrlError.text : UrlError → String
  | .emptyHost => "empty host"
  | .internationalDomain => "invalid international domain name"
  | .invalidPort => "invalid port number"
  | .invalidIpv4 => "invalid IPv4 address"
  | .invalidIpv6 => "invalid IPv6 address"
  | .invalidDomainChar => "invalid domain character"
  | .relativeWithoutBase => "relative URL without a base"

/-- The host of a URL. -/
inductive Host where
  /-- A domain, an opaque host, or the empty host. -/
  | domain (name : String)
  | ipv4 (address : Nat)
  /-- Eight 16-bit pieces. -/
  | ipv6 (pieces : List Nat)
  deriving Repr, DecidableEq

/-- The value of a hexadecimal digit. -/
def hexDigit? (c : Char) : Option Nat :=
  let n := c.toNat
  if 0x30 ≤ n && n ≤ 0x39 then some (n - 0x30)
  else if 0x41 ≤ n && n ≤ 0x46 then some (n - 0x41 + 10)
  else if 0x61 ≤ n && n ≤ 0x66 then some (n - 0x61 + 10)
  else none

/-- The value of digits in a radix, all of which must be digits of it. -/
def digitsIn (radix : Nat) (cs : List Char) : Option Nat :=
  cs.foldl (fun acc c => acc.bind fun v =>
    (hexDigit? c).bind fun d => if d < radix then some (v * radix + d) else none) (some 0)

/-- One part of an IPv4 address: decimal, octal after a leading `0`, hexadecimal after `0x`;
none when it is not a number. The value may exceed 32 bits. -/
def ipv4Part? (cs : List Char) : Option Nat :=
  match cs with
  | [] => none
  | '0' :: 'x' :: rest | '0' :: 'X' :: rest => if rest.isEmpty then some 0 else digitsIn 16 rest
  | '0' :: rest@(_ :: _) => digitsIn 8 rest
  | _ => if cs.all Char.isDigit then digitsIn 10 cs else none

/-- A domain ends in a number: its last label (a final empty label aside) is decimal digits,
or any IPv4 part. -/
def endsInNumber (s : String) : Bool :=
  let labels := (s.splitOn ".").reverse
  let last? := match labels with
    | "" :: l :: _ => some l
    | [""] => none
    | l :: _ => some l
    | [] => none
  match last? with
  | some l => (!l.isEmpty && l.toList.all Char.isDigit) || (ipv4Part? l.toList).isSome
  | none => false

def maxAddress : Nat := Nat.pow 2 32 - 1

/-- The IPv4 address of a domain that ends in a number. -/
def parseIpv4 (s : String) : Except UrlError Nat := do
  let parts := s.splitOn "."
  let parts := if parts.getLast? == some "" then parts.dropLast else parts
  if parts.length > 4 then throw .invalidIpv4
  let numbers ← parts.mapM fun p =>
    match ipv4Part? p.toList with
    | some v => if v > maxAddress then throw UrlError.invalidIpv4 else pure v
    | none => throw UrlError.invalidIpv4
  match numbers.reverse with
  | [] => throw .invalidIpv4
  | last :: _ =>
    let firsts := numbers.dropLast
    if last > maxAddress / Nat.pow 256 firsts.length then throw .invalidIpv4
    if firsts.any (· > 255) then throw .invalidIpv4
    pure (last + ((firsts.zipIdx).map fun (n, i) => n * Nat.pow 256 (3 - i)).foldr (· + ·) 0)

/-- Up to four hexadecimal digits from index `i`: their value and the index after them. -/
def readPiece (input : Array Char) : Nat → Nat → Nat → Nat × Nat
  | 0, i, v => (v, i)
  | k + 1, i, v =>
    match input[i]?.bind hexDigit? with
    | some d => readPiece input k (i + 1) (v * 16 + d)
    | none => (v, i)

/-- The state of reading an IPv6 address: the index, the pieces, the next piece and where a
`::` stands. -/
structure Ipv6Reading where
  index : Nat
  pieces : Array Nat
  pointer : Nat
  compress : Option Nat

def Ipv6Reading.put (r : Ipv6Reading) (v : Nat) : Array Nat :=
  r.pieces.setIfInBounds r.pointer v

/-- The pieces before a dotted IPv4 tail, or the whole address; true when an IPv4 tail
follows. -/
def ipv6Pieces (input : Array Char) : Nat → Ipv6Reading → Except UrlError (Ipv6Reading × Bool)
  | 0, r => pure (r, false)
  | fuel + 1, r =>
    if r.index ≥ input.size then pure (r, false)
    else if r.pointer = 8 then throw .invalidIpv6
    else if input[r.index]? = some ':' then
      if r.compress.isSome then throw .invalidIpv6
      else ipv6Pieces input fuel
        { r with index := r.index + 1, pointer := r.pointer + 1, compress := some (r.pointer + 1) }
    else
      let (value, j) := readPiece input 4 r.index 0
      match input[j]? with
      | some '.' =>
        if j = r.index || r.pointer > 6 then throw .invalidIpv6 else pure (r, true)
      | some ':' =>
        if j + 1 = input.size then throw .invalidIpv6
        else ipv6Pieces input fuel
          { r with index := j + 1, pieces := r.put value, pointer := r.pointer + 1 }
      | some _ => throw .invalidIpv6
      | none => ipv6Pieces input fuel { r with index := j, pieces := r.put value, pointer := r.pointer + 1 }

/-- A decimal number of at most 255 without a leading zero, from index `i`. -/
def dottedNumber (input : Array Char) : Nat → Nat → Option Nat → Except UrlError (Option Nat × Nat)
  | 0, i, v => pure (v, i)
  | fuel + 1, i, v =>
    match input[i]? with
    | some c =>
      if c.isDigit then
        let d := c.toNat - 0x30
        match v with
        | none => dottedNumber input fuel (i + 1) (some d)
        | some 0 => throw .invalidIpv6
        | some n =>
          if n * 10 + d > 255 then throw .invalidIpv6
          else dottedNumber input fuel (i + 1) (some (n * 10 + d))
      else pure (v, i)
    | none => pure (v, i)

/-- The dotted IPv4 tail of an IPv6 address, filling two pieces. -/
def ipv6Tail (input : Array Char) : Nat → Nat → Ipv6Reading → Except UrlError Ipv6Reading
  | 0, _, r => pure r
  | fuel + 1, seen, r =>
    if r.index ≥ input.size then
      if seen = 4 then pure r else throw .invalidIpv6
    else do
      let start ← if seen > 0 then
          if seen < 4 && input[r.index]? = some '.' then pure (r.index + 1) else throw .invalidIpv6
        else pure r.index
      let (v?, j) ← dottedNumber input 4 start none
      match v? with
      | none => throw .invalidIpv6
      | some v =>
        let pieces := r.put ((r.pieces[r.pointer]?.getD 0) * 256 + v)
        let seen := seen + 1
        let pointer := if seen = 2 || seen = 4 then r.pointer + 1 else r.pointer
        ipv6Tail input fuel seen { r with index := j, pieces, pointer }

/-- The pieces of an IPv6 address text, without its brackets. -/
def parseIpv6 (s : String) : Except UrlError (List Nat) := do
  let input := s.toList.toArray
  if input.size < 2 then throw .invalidIpv6
  let start : Ipv6Reading ←
    if input[0]? = some ':' then
      if input[1]? = some ':' then pure ⟨2, Array.replicate 8 0, 1, some 1⟩ else throw .invalidIpv6
    else pure ⟨0, Array.replicate 8 0, 0, none⟩
  let (r, dotted) ← ipv6Pieces input (input.size + 1) start
  let r ← if dotted then
      if r.pointer > 6 then throw .invalidIpv6 else ipv6Tail input (input.size + 1) 0 r
    else pure r
  if r.index < input.size then throw .invalidIpv6
  let pieces := r.pieces.toList
  match r.compress with
  | some c =>
    pure (pieces.take c ++ List.replicate (8 - r.pointer) 0 ++ (pieces.drop c).take (r.pointer - c))
  | none => if r.pointer = 8 then pure pieces else throw .invalidIpv6

def lowerHex (n : Nat) : String :=
  String.ofList (Nat.toDigits 16 n)

/-- The first longest run of zero pieces, as its start and length; length 0 if no run has two
pieces. -/
def longestZeros (pieces : List Nat) : Nat × Nat :=
  let step := fun (acc : (Nat × Nat) × Option Nat) (p : Nat × Nat) =>
    let ((best, bestLen), run) := acc
    let (v, i) := p
    if v = 0 then
      let s := run.getD i
      let len := i + 1 - s
      (if len > bestLen then (s, len) else (best, bestLen), some s)
    else ((best, bestLen), none)
  let ((best, bestLen), _) := (pieces.zipIdx).foldl step ((0, 0), none)
  if bestLen < 2 then (0, 0) else (best, bestLen)

/-- The text of an IPv6 address, without brackets. -/
def ipv6Text (pieces : List Nat) : String :=
  let (start, len) := longestZeros pieces
  let hexes := pieces.map lowerHex
  if len = 0 then ":".intercalate hexes
  else ":".intercalate (hexes.take start) ++ "::" ++ ":".intercalate (hexes.drop (start + len))

/-- The text of a host. -/
def Host.serialize : Host → String
  | .domain d => d
  | .ipv4 a =>
    ".".intercalate ([3, 2, 1, 0].map fun k => toString (a / Nat.pow 256 k % 256))
  | .ipv6 ps => "[" ++ ipv6Text ps ++ "]"

/-- The host of a special URL. -/
def parseHost (s : String) : Except UrlError Host := do
  if s.startsWith "[" then
    if !s.endsWith "]" then throw .invalidIpv6
    return .ipv6 (← parseIpv6 (String.ofList ((s.toList.drop 1).dropLast)))
  let domain ← match toAsciiDomain (Text.Utf8.lossy (percentDecode s)) with
    | .ok d => pure d
    | .error _ => throw .internationalDomain
  if domain.isEmpty then throw .emptyHost
  if endsInNumber domain then return .ipv4 (← parseIpv4 domain)
  return .domain domain

def isForbiddenInHost (c : Char) : Bool :=
  ['\x00', '\t', '\n', '\r', ' ', '#', '/', ':', '<', '>', '?', '@', '[', '\\', ']', '^', '|'].contains c

/-- The host of a URL whose scheme is not special. -/
def parseOpaqueHost (s : String) : Except UrlError Host := do
  if s.startsWith "[" then
    if !s.endsWith "]" then throw .invalidIpv6
    return .ipv6 (← parseIpv6 (String.ofList ((s.toList.drop 1).dropLast)))
  if s.toList.any isForbiddenInHost then throw .invalidDomainChar
  return .domain (percentEncode inControlSet s)

end XmlPointer.Location
