/-! # Searching text

The first occurrence of a pattern in a text, as the parts before and after it. The empty
pattern occurs at the very start. -/
namespace XmlPointer.Text

/-- The text after a prefix, if the text starts with it. -/
def dropPrefix? : List Char → List Char → Option (List Char)
  | [], s => some s
  | _ :: _, [] => none
  | p :: ps, c :: cs => if p = c then dropPrefix? ps cs else none

/-- The parts of a text before and after the first occurrence of a pattern. -/
def splitAtFirst (pattern : List Char) : List Char → Option (List Char × List Char)
  | [] => (dropPrefix? pattern []).map fun rest => ([], rest)
  | c :: cs =>
    match dropPrefix? pattern (c :: cs) with
    | some rest => some ([], rest)
    | none => (splitAtFirst pattern cs).map fun (before, after) => (c :: before, after)

def occursIn (pattern text : String) : Bool :=
  (splitAtFirst pattern.toList text.toList).isSome

end XmlPointer.Text
