import XmlPointer.Markup.Scan
import XmlPointer.Text.Utf8

/-! # ID attributes of a document type declaration

Of an internal DTD subset only the attribute-list declarations matter here, and of them only
which attribute of an element has type `ID`: its values name elements for shorthand pointers.
Comments are skipped; a declaration ends at its first `>` outside quotes. An element keeps the
first `ID` attribute declared for it. -/
namespace XmlPointer.Markup

/-- For each element name, the attribute declared with type `ID`, first declaration first. -/
structure Dtd where
  ids : List (String × String) := []
  deriving Repr, DecidableEq

def Dtd.idAttribute (d : Dtd) (element : String) : Option String :=
  (d.ids.find? (·.1 == element)).map (·.2)

def Dtd.declare (d : Dtd) (element attr : String) : Dtd :=
  if d.ids.any (·.1 == element) then d else ⟨d.ids ++ [(element, attr)]⟩

/-- The words of a declaration: runs of non-blanks, where a quoted literal (quotes included)
and a parenthesized group are one word each, and `(` also starts a new word. -/
def declarationWords : List Char → List (List Char)
  | [] => []
  | c :: cs =>
    if Text.isAsciiBlank c then declarationWords cs
    else if c = '"' || c = Char.ofNat 0x27 || c = '(' then
      let close := if c = '(' then ')' else c
      let inner := cs.takeWhile (· != close)
      if inner.length < cs.length then
        (c :: inner ++ [close]) :: declarationWords (cs.drop (inner.length + 1))
      else [c :: cs]
    else
      let word := cs.takeWhile fun d => !(Text.isAsciiBlank d || d = '(')
      (c :: word) :: declarationWords (cs.drop word.length)
termination_by cs => cs.length
decreasing_by all_goals simp only [List.length_cons, List.length_drop]; omega

/-- Reads `attribute type default` triples after the element name, at most `fuel` of them;
`NOTATION` types and `#FIXED` defaults take one more word. -/
def attlistItems (element : String) : Nat → List String → Dtd → Dtd
  | fuel + 1, attr :: type :: rest, d =>
    let rest := if type == "NOTATION" then rest.drop 1 else rest
    match rest with
    | [] => d
    | default :: rest =>
      let rest := if default == "#FIXED" then rest.drop 1 else rest
      let d := if type == "ID" then d.declare element attr else d
      attlistItems element fuel rest d
  | _, _, d => d

/-- Adds the `ID` attributes of one attribute-list declaration body. -/
def Dtd.addAttlist (d : Dtd) (body : List UInt8) : Dtd :=
  match (declarationWords (Text.Utf8.decodeLossy body)).map String.ofList with
  | element :: rest => attlistItems element rest.length rest d
  | [] => d

/-- Reads the declarations of a subset from its next `<` on. -/
def subsetDeclarations : Nat → List UInt8 → Dtd → Dtd
  | 0, _, d => d
  | fuel + 1, bs, d =>
    let rest := bs.dropWhile (· != 0x3C)
    if rest.isEmpty then d
    else if (ascii "<!--").isPrefixOf rest then
      match findSeq (ascii "-->") (rest.drop 4) with
      | none => d
      | some e => subsetDeclarations fuel (rest.drop (e + 7)) d
    else
      let stop := (findClose none rest).getD rest.length
      let d := if (ascii "<!ATTLIST").isPrefixOf rest then d.addAttlist ((rest.take stop).drop 9)
        else d
      subsetDeclarations fuel (rest.drop (stop + 1)) d

/-- The `ID` attributes declared in the internal subset of a document type declaration (the
part after its first `[`). -/
def Dtd.parse (doctype : List UInt8) : Dtd :=
  let pre := doctype.takeWhile (· != 0x5B)
  if pre.length < doctype.length then
    let subset := doctype.drop (pre.length + 1)
    subsetDeclarations (subset.length + 1) subset {}
  else {}

end XmlPointer.Markup
