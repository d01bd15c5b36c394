import XmlPointer.Markup.Token
import XmlPointer.Markup.Attribute

/-! # Pull events

The events of an input are its tokens with the attributes of tags read: start and empty
elements carry their attributes, empty character data gives no event, and the stream ends with
`endDocument` or at the first fault, of the tokenizer or of an attribute region. Each event
comes with the offset of its token. -/
namespace XmlPointer.Markup

/-- A start tag's name and attributes. -/
structure StartTag where
  name : List UInt8
  attributes : List Attribute
  deriving Repr, DecidableEq

def StartTag.attribute (t : StartTag) (name : List UInt8) : Option (List UInt8) :=
  (t.attributes.find? (·.name == name)).map (·.value)

/-- An event of the pull reader. -/
inductive Event where
  | start (tag : StartTag)
  | finish (name : List UInt8)
  | empty (tag : StartTag)
  | text (content : List UInt8)
  | cdata (content : List UInt8)
  | comment (content : List UInt8)
  | instruction (target data : List UInt8)
  | declaration
  | doctype (content : List UInt8)
  | endDocument
  deriving Repr, DecidableEq

/-- The event of a token, `none` for empty character data. -/
def Token.event (strict : Bool) (t : Token) : Except SyntaxError (Option Event) :=
  let tag := fun (_ : Unit) =>
    (parseAttributes (t.content.getD []) t.contentOffset strict).map
      fun attrs => StartTag.mk (t.name.getD []) attrs
  match t.kind with
  | .eof => .ok (some .endDocument)
  | .startTag => (tag ()).map (some ∘ .start)
  | .emptyTag => (tag ()).map (some ∘ .empty)
  | .endTag => .ok (some (.finish (t.name.getD [])))
  | .text =>
    match t.content with
    | some (b :: bs) => .ok (some (.text (b :: bs)))
    | _ => .ok none
  | .cdata => .ok (some (.cdata (t.content.getD [])))
  | .comment => .ok (some (.comment (t.content.getD [])))
  | .instruction => .ok (some (.instruction (t.name.getD []) (t.content.getD [])))
  | .declaration => .ok (some .declaration)
  | .doctype => .ok (some (.doctype (t.content.getD [])))

/-- The events of tokens with their offsets, up to the first fault. -/
def eventsOf (strict : Bool) : List Token → List (Nat × Event) × Option SyntaxError
  | [] => ([], none)
  | t :: ts =>
    match t.event strict with
    | .error e => ([], some e)
    | .ok none => eventsOf strict ts
    | .ok (some ev) =>
      let more := eventsOf strict ts
      ((t.start, ev) :: more.1, more.2)

/-- The events of an input with their offsets, up to `endDocument` or the first fault. -/
def events (strict : Bool) (input : List UInt8) : List (Nat × Event) × Option SyntaxError :=
  let toks := tokenize input
  let evs := eventsOf strict toks.1
  (evs.1, evs.2.or toks.2)

end XmlPointer.Markup
