import XmlPointer.Document.Printer

/-! # Stream tokens

A token of a forward-only stream of XML: a start tag (an element without content is one start
token marked empty, with no end token), an end tag, or a leaf. `StreamToken.xml` writes it the
way the document printer writes the same markup. -/
namespace XmlPointer

/-- One token of a stream. -/
inductive StreamToken where
  | start (name : String) (prefixName : Option String) (localName : String)
      (nsUri : Option String) (attributes : List (String × String)) (isEmpty : Bool)
  | finish (name : String)
  | text (value : String)
  | cdata (value : String)
  | comment (value : String)
  | instruction (target data : String)
  deriving Repr, DecidableEq

namespace StreamToken

/-- The XML of a token. -/
def xml : StreamToken → String
  | .start name _ _ _ attrs empty => tagText name attrs empty
  | .finish name => endTagText name
  | .text v => Text.escapeText v
  | .cdata v => cdataText v
  | .comment v => commentText v
  | .instruction t v => instructionText t v

/-- The element name of a tag, or the target of a processing instruction. -/
def name? : StreamToken → Option String
  | .start name .. => some name
  | .finish name => some name
  | .instruction t _ => some t
  | _ => none

/-- The token opens an element. -/
def isStart : StreamToken → Bool
  | .start .. => true
  | _ => false

end StreamToken

end XmlPointer
