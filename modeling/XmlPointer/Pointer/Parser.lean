import XmlPointer.Pointer.Lexer
import XmlPointer.Pointer.Part

/-! # Parsing pointers

A pointer is a shorthand (a lone name) or a sequence of scheme invocations, blanks allowed
between them. A scheme is built in when its name is unprefixed, or when its prefix is bound
by the latest earlier `xmlns()` part to the empty namespace; any other scheme is skipped with
its escaped payload. Each built-in scheme reads its own payload. An `element()` part without
name and positions, and a blank expression, give no part. -/
namespace XmlPointer

/-- A parser over pointer text. -/
abbrev PointerParser := StateT PointerLexer (Except PointerError)

namespace PointerParser

/-- Runs a lexer operation, failing with its error. -/
def lift {α : Type} (f : PointerLexer → PointerLexer.Read α) : PointerParser α :=
  fun l =>
    match f l with
    | (.ok a, l') => .ok (a, l')
    | (.error e, _) => .error e

def next : PointerParser Lexeme :=
  lift PointerLexer.nextLexeme

def skipBlanks : PointerParser Unit :=
  modify fun l => (l.skipBlanks).2

def escapedData : PointerParser String :=
  lift PointerLexer.escapedData

def failHere {α : Type} (f : PointerFault) : PointerParser α := do
  throw (.malformed f (← get).offset)

def unexpected {α : Type} (expected : String) (found : Lexeme) : PointerParser α :=
  failHere (.unexpected expected found)

/-- The built-in schemes. -/
inductive Scheme where
  | element
  | xmlns
  | xpath1
  | xpointer
  | unknown
  deriving Repr, DecidableEq

/-- The scheme of a namespace URI and a local name; the built-in ones have no namespace. -/
def Scheme.lookup (uri name : String) : Scheme :=
  if !uri.isEmpty then .unknown
  else match name with
    | "element" => .element
    | "xmlns" => .xmlns
    | "xpath1" => .xpath1
    | "xpointer" => .xpointer
    | _ => .unknown

/-- The child positions after the name of an `element()` payload, up to its `)`, reading at
most `fuel` positions. -/
def elementPositions : Nat → Lexeme → PointerParser (List Nat)
  | 0, _ => failHere .unterminatedData
  | fuel + 1, lexeme => do
    match lexeme with
    | .rightParen => pure []
    | .slash =>
      let at_ := (← get).offset
      match (← next) with
      | .number 0 => throw (.malformed .zeroPosition at_)
      | .number n =>
        let rest ← elementPositions fuel (← next)
        pure (n :: rest)
      | other => unexpected "a child position" other
    | other => unexpected "`/` or `)`" other

/-- The payload of `element()`. -/
def elementPayload : PointerParser (Option Part) := do
  let fuel := (← get).rest.length + 1
  match (← next) with
  | .rightParen => pure none
  | .name n _ =>
    let positions ← elementPositions fuel (← next)
    pure (some (.element (some n) positions))
  | .slash =>
    let positions ← elementPositions fuel .slash
    pure (if positions.isEmpty then none else some (.element none positions))
  | other => unexpected "an element name or `/`" other

/-- The payload of `xmlns()`: a prefix, `=` and the escaped URI, blanks allowed between. -/
def xmlnsPayload : PointerParser Part := do
  skipBlanks
  let pre ← match (← next) with
    | .name n _ => pure n
    | other => unexpected "a namespace prefix" other
  skipBlanks
  match (← next) with
  | .equals => pure ()
  | other => unexpected "`=`" other
  skipBlanks
  let uri ← escapedData
  pure (.xmlns pre uri)

/-- The payload of an expression scheme; a blank one gives none. -/
def expressionPayload : PointerParser (Option String) := do
  let data ← escapedData
  pure (if (Text.trimUnicode data).isEmpty then none else some data)

/-- The payload of a scheme, after its `(`. -/
def payload : Scheme → PointerParser (Option Part)
  | .element => elementPayload
  | .xmlns => some <$> xmlnsPayload
  | .xpath1 => (·.map .xpath1) <$> expressionPayload
  | .xpointer => (·.map .xpointer) <$> expressionPayload
  | .unknown => do
    discard escapedData
    pure none

/-- The URI that the latest `xmlns()` part binds a prefix to. -/
def boundUri (parts : List Part) (pre : String) : Option String :=
  parts.reverse.findSome? fun
    | .xmlns p u => if p = pre then some u else none
    | _ => none

/-- The scheme parts from a lexeme on, after the parts read so far, reading at most `fuel`
parts. -/
def schemeParts : Nat → List Part → Lexeme → PointerParser (List Part)
  | 0, parts, _ => pure parts
  | fuel + 1, parts, lexeme => do
    match lexeme with
    | .eof => pure parts
    | _ =>
      let scheme ← match lexeme with
        | .name n true => pure (Scheme.lookup "" n)
        | .qualifiedName p n true =>
          pure (match boundUri parts p with
            | some uri => Scheme.lookup uri n
            | none => .unknown)
        | other => failHere (.notSchemeName other)
      modify fun l => (l.nextChar).2
      let part ← payload scheme
      skipBlanks
      schemeParts fuel (parts ++ part.toList) (← next)

end PointerParser

/-- The pointer of a text, or why the text is malformed. -/
def Pointer.parse (text : String) : Except PointerError Pointer := do
  let start := PointerLexer.ofString text
  let (first, l) ← PointerParser.next.run start
  match first with
  | .name n false =>
    let (trailing, _) ← PointerParser.next.run l
    if trailing = .eof then pure (.shorthand n)
    else throw (.malformed (.notShorthand trailing) n.length)
  | .eof => throw (.malformed .empty 0)
  | _ =>
    let (parts, _) ← (PointerParser.schemeParts (text.length + 1) [] first).run l
    pure (.schemeBased parts text)

end XmlPointer
