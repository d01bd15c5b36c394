/-! # Node sets in document order

Node ids are given in document order, so a node-set is a strictly increasing list of ids:
`normalize` sorts a list of ids and drops the repeats. -/
namespace XmlPointer.Path

/-- Drops the repeats of a sorted list, keeping one of each. -/
def dedupSorted : List Nat → List Nat
  | [] => []
  | a :: rest =>
    match rest with
    | b :: _ => if a = b then dedupSorted rest else a :: dedupSorted rest
    | [] => [a]

def normalize (ids : List Nat) : List Nat :=
  dedupSorted (ids.mergeSort (· ≤ ·))

end XmlPointer.Path
