/-! # Reading UTF-8

Bytes are read one encoded character at a time. Where the bytes are not UTF-8, the longest
prefix that could still begin a well-formed sequence (at least one byte) is one ill-formed
unit: the lossy reading writes U+FFFD for it, and `firstInvalid` gives where the first one
starts. -/
namespace XmlPointer.Text.Utf8

/-- One unit read from the front of the bytes: a character that used `1 + extra` bytes, or an
ill-formed prefix of `1 + extra` bytes. -/
inductive Piece where
  | char (c : Char) (extra : Nat)
  | bad (extra : Nat)
  deriving Repr, DecidableEq

def isCont (b : UInt8) : Bool :=
  0x80 ≤ b && b ≤ 0xBF

/-- The count of bytes that a leading byte announces, or zero if it leads no sequence. -/
def width (b : UInt8) : Nat :=
  if b < 0x80 then 1
  else if 0xC2 ≤ b && b ≤ 0xDF then 2
  else if 0xE0 ≤ b && b ≤ 0xEF then 3
  else if 0xF0 ≤ b && b ≤ 0xF4 then 4
  else 0

/-- The bytes allowed second after a leading byte, which rule out overlong forms, surrogates
and code points above U+10FFFF. -/
def secondRange (b : UInt8) : UInt8 × UInt8 :=
  if b = 0xE0 then (0xA0, 0xBF)
  else if b = 0xED then (0x80, 0x9F)
  else if b = 0xF0 then (0x90, 0xBF)
  else if b = 0xF4 then (0x80, 0x8F)
  else (0x80, 0xBF)

def low (b : UInt8) : Nat :=
  (b &&& 0x3F).toNat

/-- Reads the unit that starts with `b0`, followed by `rest`. -/
def readUnit (b0 : UInt8) (rest : List UInt8) : Piece :=
  let w := width b0
  if w = 1 then .char (Char.ofNat b0.toNat) 0
  else if w = 0 then .bad 0
  else
    let r := secondRange b0
    match rest with
    | [] => .bad 0
    | b1 :: rest =>
      if !(r.1 ≤ b1 && b1 ≤ r.2) then .bad 0
      else if w = 2 then .char (Char.ofNat ((b0 &&& 0x1F).toNat * 64 + low b1)) 1
      else
        match rest with
        | [] => .bad 1
        | b2 :: rest =>
          if !isCont b2 then .bad 1
          else if w = 3 then
            .char (Char.ofNat ((b0 &&& 0x0F).toNat * 4096 + low b1 * 64 + low b2)) 2
          else
            match rest with
            | [] => .bad 2
            | b3 :: _ =>
              if !isCont b3 then .bad 2
              else .char (Char.ofNat ((b0 &&& 0x07).toNat * 262144 + low b1 * 4096 +
                low b2 * 64 + low b3)) 3

/-- The characters of the bytes, with U+FFFD for each ill-formed unit. -/
def decodeLossy : List UInt8 → List Char
  | [] => []
  | b :: rest =>
    match readUnit b rest with
    | .char c extra => c :: decodeLossy (rest.drop extra)
    | .bad extra => '\uFFFD' :: decodeLossy (rest.drop extra)
termination_by bs => bs.length
decreasing_by all_goals simp only [List.length_drop, List.length_cons]; omega

def lossy (bs : List UInt8) : String :=
  String.ofList (decodeLossy bs)

/-- Where the first ill-formed unit starts, counting from `start`; `none` for UTF-8. -/
def firstInvalidFrom (start : Nat) : List UInt8 → Option Nat
  | [] => none
  | b :: rest =>
    match readUnit b rest with
    | .char _ extra => firstInvalidFrom (start + 1 + extra) (rest.drop extra)
    | .bad _ => some start
termination_by bs => bs.length
decreasing_by simp only [List.length_drop, List.length_cons]; omega

def firstInvalid (bs : List UInt8) : Option Nat :=
  firstInvalidFrom 0 bs

def encode (s : String) : List UInt8 :=
  s.toList.flatMap String.utf8EncodeChar

end XmlPointer.Text.Utf8
