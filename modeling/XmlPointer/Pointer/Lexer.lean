import XmlPointer.Pointer.Error
import XmlPointer.Text.Blank
import XmlPointer.Text.Name

/-! # Reading pointer text

The lexer reads one lexeme at a time; a scheme reads its own payload, either lexeme by lexeme
or as escaped data up to the closing bracket. Positions count characters. Every operation
returns the lexer after it, also when it fails, since a failed read has still consumed what it
looked at. -/
namespace XmlPointer

/-- The unread text of a pointer and the count of characters read. -/
structure PointerLexer where
  rest : List Char
  offset : Nat
  deriving Repr, DecidableEq

namespace PointerLexer

def ofString (s : String) : PointerLexer :=
  ⟨s.toList, 0⟩

def peek (l : PointerLexer) : Option Char :=
  l.rest.head?

def after (l : PointerLexer) (n : Nat) (rest : List Char) : PointerLexer :=
  ⟨rest, l.offset + n⟩

/-- Reads one character. -/
def nextChar (l : PointerLexer) : Option Char × PointerLexer :=
  match l.rest with
  | c :: cs => (some c, l.after 1 cs)
  | [] => (none, l)

/-- Reads a run of blanks; true when there was one. -/
def skipBlanks (l : PointerLexer) : Bool × PointerLexer :=
  let (blanks, rest) := l.rest.span Text.isXmlBlank
  (!blanks.isEmpty, l.after blanks.length rest)

/-- Reads a non-colonized name, if one starts here. -/
def name? (l : PointerLexer) : Option String × PointerLexer :=
  match l.rest with
  | c :: cs =>
    if Text.isNameStart c then
      let (more, rest) := cs.span Text.isNameChar
      (some (String.ofList (c :: more)), l.after (1 + more.length) rest)
    else (none, l)
  | [] => (none, l)

/-- The outcome of a read: a value or an error, and the lexer after it. -/
abbrev Read (α : Type) := Except PointerError α × PointerLexer

def malformedAt {α : Type} (f : PointerFault) (at_ : Nat) (l : PointerLexer) : Read α :=
  (.error (.malformed f at_), l)

/-- Escaped data from the character at `at_` on, inside `depth` open brackets: `^` escapes
`^`, `(` and `)`, and the data ends at the `)` that closes no bracket, which is read too. -/
def escapedFrom : Nat → Nat → List Char → Read (List Char)
  | _, at_, [] => malformedAt .unterminatedData at_ ⟨[], at_⟩
  | _, at_, ['^'] => malformedAt .unterminatedEscape at_ ⟨[], at_ + 1⟩
  | depth, at_, '^' :: c :: cs =>
    if c = '^' || c = '(' || c = ')' then
      let (r, l) := escapedFrom depth (at_ + 2) cs
      (r.map (c :: ·), l)
    else malformedAt .badEscape at_ ⟨cs, at_ + 2⟩
  | depth, at_, '(' :: cs =>
    let (r, l) := escapedFrom (depth + 1) (at_ + 1) cs
    (r.map ('(' :: ·), l)
  | 0, at_, ')' :: cs => (.ok [], ⟨cs, at_ + 1⟩)
  | depth + 1, at_, ')' :: cs =>
    let (r, l) := escapedFrom depth (at_ + 1) cs
    (r.map (')' :: ·), l)
  | depth, at_, c :: cs =>
    let (r, l) := escapedFrom depth (at_ + 1) cs
    (r.map (c :: ·), l)

/-- Reads raw scheme data up to the balanced closing `)`, which is read too. -/
def escapedData (l : PointerLexer) : Read String :=
  let (r, l') := escapedFrom 0 l.offset l.rest
  (r.map String.ofList, l')

def numberLimit : Nat := Nat.pow 2 31 - 1

/-- The digits from offset `at_` on, after a value read so far; a digit that takes the value
past the limit is read and fails at the number's start. -/
def numberFrom (start value at_ : Nat) : List Char → Read Nat
  | c :: cs =>
    if c.isDigit then
      let v := value * 10 + (c.toNat - '0'.toNat)
      if v > numberLimit then malformedAt .numberOutOfRange start ⟨cs, at_ + 1⟩
      else numberFrom start v (at_ + 1) cs
    else (.ok value, ⟨c :: cs, at_⟩)
  | [] => (.ok value, ⟨[], at_⟩)

/-- A name lexeme, with an optional prefix; it can name a scheme when `(` follows. -/
def nameLexeme (l : PointerLexer) : Read Lexeme :=
  match l.name? with
  | (none, l) => malformedAt .missingName l.offset l
  | (some n, l) =>
    match l.rest with
    | ':' :: cs =>
      let l := l.after 1 cs
      match l.name? with
      | (some localPart, l) => (.ok (.qualifiedName n localPart (l.peek == some '(')), l)
      | (none, l) => malformedAt .missingLocalName l.offset l
    | _ => (.ok (.name n (l.peek == some '(')), l)

/-- The lexeme of one punctuation character. -/
def punctuation : Char → Option Lexeme
  | '(' => some .leftParen
  | ')' => some .rightParen
  | '^' => some .circumflex
  | '=' => some .equals
  | '/' => some .slash
  | _ => none

/-- Reads the next lexeme. -/
def nextLexeme (l : PointerLexer) : Read Lexeme :=
  match l.rest with
  | [] => (.ok .eof, l)
  | c :: cs =>
    match punctuation c with
    | some t => (.ok t, l.after 1 cs)
    | none =>
      if Text.isXmlBlank c then (.ok .space, (l.skipBlanks).2)
      else if c.isDigit then
        let (r, l') := numberFrom l.offset 0 l.offset l.rest
        (r.map .number, l')
      else if Text.isNameStart c then nameLexeme l
      else malformedAt (.strayChar c) l.offset l

end PointerLexer

end XmlPointer
