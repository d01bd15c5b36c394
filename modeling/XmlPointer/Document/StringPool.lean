/-! # Interned strings

A string pool gives each distinct string an id: the empty string is 0, and the others get
1, 2, … in the order they are first interned. The bytes of the interned strings lie one after
another in one buffer, where each id has an offset and a length. An index takes the hash of a
string to the ids of the strings with that hash, and a string is found by comparing it with the
strings of those ids. An id that was never given reads as the empty string. Offsets, lengths and
ids are kept in 32 bits: past 2^32 bytes of interned text an offset wraps, and the entry reads
other bytes. -/
namespace XmlPointer

/-- The interned strings: the offset and byte length of each id's string in `data`, and the ids
of the strings of each hash. Entry 0 is the empty string. -/
structure StringPool where
  entries : Array (UInt32 × UInt32) := #[(0, 0)]
  data : String := ""
  index : UInt64 → Array UInt32 := fun _ => #[]

namespace StringPool

/-- The string of an id: its bytes in the buffer, or the empty string for an id never given or
for bytes that are not a whole text. -/
def get (p : StringPool) (id : UInt32) : String :=
  match p.entries[id.toNat]? with
  | some (offset, len) =>
    if offset.toNat + len.toNat ≤ p.data.utf8ByteSize then
      (String.fromUTF8? (p.data.toByteArray.extract offset.toNat (offset.toNat + len.toNat))).getD ""
    else ""
  | none => ""

def find? (hashOf : String → UInt64) (p : StringPool) (s : String) : Option UInt32 :=
  (p.index (hashOf s)).find? (p.get · == s)

def lookupWith (hashOf : String → UInt64) (p : StringPool) (s : String) : Option UInt32 :=
  if s.isEmpty then some 0 else p.find? hashOf s

/-- The pool with a new string: its bytes go to the end of the buffer, and its id, the next
one, to the ids of its hash. -/
def push (hashOf : String → UInt64) (p : StringPool) (s : String) : StringPool where
  entries := p.entries.push (.ofNat p.data.utf8ByteSize, .ofNat s.utf8ByteSize)
  data := p.data ++ s
  index k := if k = hashOf s then (p.index k).push (.ofNat p.entries.size) else p.index k

/-- Interns a string, for strings indexed by `hashOf`: its id, and the pool that knows it. -/
def internWith (hashOf : String → UInt64) (p : StringPool) (s : String) : StringPool × UInt32 :=
  if s.isEmpty then (p, 0)
  else
    match p.find? hashOf s with
    | some id => (p, id)
    | none => (p.push hashOf s, .ofNat p.entries.size)

def hashOf (s : String) : UInt64 :=
  hash s

def lookup? (p : StringPool) (s : String) : Option UInt32 :=
  p.lookupWith hashOf s

def intern (p : StringPool) (s : String) : StringPool × UInt32 :=
  p.internWith hashOf s

def size (p : StringPool) : Nat :=
  p.entries.size

def isEmpty (p : StringPool) : Bool :=
  p.size ≤ 1

def bytesUsed (p : StringPool) : Nat :=
  p.data.utf8ByteSize

end StringPool

end XmlPointer
