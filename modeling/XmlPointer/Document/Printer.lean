import XmlPointer.Document.Basic
import XmlPointer.Text.Entity

/-! # Writing nodes as XML

A node is written with its subtree: text escaped, CDATA, comments and processing instructions
as they were, an element without children in the self-closing form. Namespace declarations
stand where they were made; an element written as a fragment of its own also repeats, ahead
of its own attributes, the declarations it inherits, so that the fragment means the same
outside the document. -/
namespace XmlPointer

/-- A start tag: the name, then each attribute as ` name="value"`. -/
def tagText (name : String) (attrs : List (String × String)) (selfClosing : Bool) : String :=
  "<" ++ name ++ String.join (attrs.map fun a => " " ++ a.1 ++ "=\"" ++ Text.escapeAttribute a.2 ++ "\"") ++
    (if selfClosing then "/>" else ">")

def endTagText (name : String) : String :=
  "</" ++ name ++ ">"

def cdataText (content : String) : String :=
  "<![CDATA[" ++ content ++ "]]>"

def commentText (content : String) : String :=
  "<!--" ++ content ++ "-->"

def instructionText (target data : String) : String :=
  "<?" ++ target ++ (if data.isEmpty then "" else " " ++ data) ++ "?>"

namespace Document

def declarations (d : Document) (id : Nat) : List (String × String) :=
  ((d.attributes id).filter (·.isDeclaration)).map fun a => (a.name, a.value)

/-- Keeps the declarations of one ancestor whose names are not yet seen, and all of them as
seen; a kept declaration with an empty URI (an undeclaration) is not written. -/
def unseenDeclarations : List String → List (String × String) → List String × List (String × String)
  | seen, [] => (seen, [])
  | seen, (n, u) :: rest =>
    if seen.contains n then unseenDeclarations seen rest
    else
      let more := unseenDeclarations (n :: seen) rest
      (more.1, if u.isEmpty then more.2 else (n, u) :: more.2)

/-- The declarations in scope at a node that it does not make itself, outermost ancestor
first: for each name the nearest declaration counts, and an undeclaration is left out. -/
def inheritedDeclarations (d : Document) (id : Nat) : List (String × String) :=
  let own := (d.declarations id).map (·.1)
  let step := fun (acc : List String × List (List (String × String))) (a : Nat) =>
    let r := unseenDeclarations acc.1 (d.declarations a)
    (r.1, r.2 :: acc.2)
  ((d.ancestors id).foldl step (own, [])).2.flatten

def attributePairs (d : Document) (id : Nat) : List (String × String) :=
  (d.attributes id).map fun a => (a.name, a.value)

/-- The XML of a node in its context, descending at most `fuel` levels. -/
def contentXml (d : Document) : Nat → Nat → String
  | 0, _ => ""
  | fuel + 1, id =>
    match d.node? id with
    | none => ""
    | some n =>
      match n.kind with
      | .document => String.join ((d.children id).map (d.contentXml fuel))
      | .element =>
        if (d.children id).isEmpty then tagText n.name (d.attributePairs id) true
        else tagText n.name (d.attributePairs id) false ++
          String.join ((d.children id).map (d.contentXml fuel)) ++ endTagText n.name
      | .text => Text.escapeText n.value
      | .cdata => cdataText n.value
      | .comment => commentText n.value
      | .instruction => instructionText n.name n.value

/-- The XML of a node as a fragment of its own: an element also carries the declarations it
inherits. -/
def toXml (d : Document) (id : Nat) : String :=
  match d.node? id with
  | some n =>
    if n.kind = .element then
      let attrs := d.inheritedDeclarations id ++ d.attributePairs id
      if (d.children id).isEmpty then tagText n.name attrs true
      else tagText n.name attrs false ++
        String.join ((d.children id).map (d.contentXml d.size)) ++ endTagText n.name
    else d.contentXml (d.size + 1) id
  | none => ""

end Document

end XmlPointer
