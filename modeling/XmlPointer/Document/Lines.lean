/-! # Line positions

The line of a byte offset is one more than the count of line feeds before it, and its column
one more than the count of characters between the last of those line feeds and the offset,
a character being a byte that is no UTF-8 continuation byte. `linePositions` finds the
positions of many offsets in one pass over the bytes. -/
namespace XmlPointer

/-- The line and column of a byte offset. -/
def linePosition (input : List UInt8) (offset : Nat) : Nat × Nat :=
  let before := input.take offset
  let line := before.count 0x0A + 1
  let lastLine := (before.reverse.takeWhile (· != 0x0A))
  (line, (lastLine.filter fun b => b &&& 0xC0 != 0x80).length + 1)

def stepPosition (p : Nat × Nat) (b : UInt8) : Nat × Nat :=
  if b = 0x0A then (p.1 + 1, 1) else if b &&& 0xC0 != 0x80 then (p.1, p.2 + 1) else p

/-- The positions of non-decreasing offsets, walking the bytes from offset `pos`, whose
position is `p`; an offset past the end has the position of the end. -/
def positionsFrom : List UInt8 → Nat → Nat × Nat → List Nat → List (Nat × Nat)
  | _, _, _, [] => []
  | bs, pos, p, o :: os =>
    if o ≤ pos then p :: positionsFrom bs pos p os
    else
      match bs with
      | [] => p :: positionsFrom [] pos p os
      | b :: rest => positionsFrom rest (pos + 1) (stepPosition p b) (o :: os)
termination_by bs _ _ os => bs.length + os.length

/-- The line and column of each offset, in the order given. -/
def linePositions (input : List UInt8) (offsets : List Nat) : List (Nat × Nat) :=
  let sorted := offsets.zipIdx.mergeSort fun a b => a.1 ≤ b.1
  let found := positionsFrom input 0 (1, 1) (sorted.map (·.1))
  ((sorted.zip found).mergeSort fun a b => a.1.2 ≤ b.1.2).map (·.2)

end XmlPointer
