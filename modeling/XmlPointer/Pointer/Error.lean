/-! # Errors of pointers

A pointer fails in exactly two ways that a caller sees: its text is malformed (at a character
offset, for a reason of `PointerFault`), or it selects nothing. Failures while evaluating a
part are recovered by the evaluator and only decide which part wins. -/
namespace XmlPointer

/-- A lexeme of pointer text. -/
inductive Lexeme where
  /-- A name; it can name a scheme when `(` follows at once. -/
  | name (name : String) (canBeScheme : Bool)
  | qualifiedName (pre localPart : String) (canBeScheme : Bool)
  | leftParen
  | rightParen
  | circumflex
  | number (value : Nat)
  | equals
  /-- A run of blanks. -/
  | space
  | slash
  | eof
  deriving Repr, DecidableEq

/-- How an error names a lexeme. -/
def Lexeme.describe : Lexeme → String
  | .name .. => "name"
  | .qualifiedName .. => "qualified name"
  | .leftParen => "`(`"
  | .rightParen => "`)`"
  | .circumflex => "`^`"
  | .number _ => "number"
  | .equals => "`=`"
  | .space => "whitespace"
  | .slash => "`/`"
  | .eof => "end of pointer"

/-- Why a pointer text is malformed. -/
inductive PointerFault where
  | strayChar (c : Char)
  | missingName
  | missingLocalName
  /-- A number above `2^31 - 1`. -/
  | numberOutOfRange
  | unterminatedData
  /-- A `^` followed by a character that it does not escape. -/
  | badEscape
  | unterminatedEscape
  /-- A name that is not a scheme name is followed by more text. -/
  | notShorthand (found : Lexeme)
  | empty
  | notSchemeName (found : Lexeme)
  | zeroPosition
  | unexpected (expected : String) (found : Lexeme)
  deriving Repr, DecidableEq

/-- The text of a fault. -/
def PointerFault.text : PointerFault → String
  | .strayChar c => "unexpected character `" ++ c.toString ++ "`"
  | .missingName => "expected a name"
  | .missingLocalName => "expected a local name after `:`"
  | .numberOutOfRange => "number out of range"
  | .unterminatedData => "unterminated scheme data"
  | .badEscape => "`^` must be followed by `^`, `(` or `)`"
  | .unterminatedEscape => "unterminated escape"
  | .notShorthand l =>
    "a shorthand pointer is a single name, found " ++ l.describe ++ " after it"
  | .empty => "empty pointer"
  | .notSchemeName l => "expected a scheme name, found " ++ l.describe
  | .zeroPosition => "child positions start at 1"
  | .unexpected e l => "expected " ++ e ++ ", found " ++ l.describe

/-- Why a pointer is refused, or selects nothing. -/
inductive PointerError where
  /-- Malformed text, at a character offset. -/
  | malformed (fault : PointerFault) (position : Nat)
  /-- Nothing selected; carries the shorthand name or the whole text. -/
  | noSubresources (pointer : String)
  deriving Repr, DecidableEq

/-- The message of a pointer error. -/
def PointerError.message : PointerError → String
  | .malformed f p => "invalid pointer syntax at offset " ++ toString p ++ ": " ++ f.text
  | .noSubresources p => "pointer `" ++ p ++ "` did not identify any subresources"

/-- The error is about malformed text. -/
def PointerError.isMalformed : PointerError → Bool
  | .malformed .. => true
  | .noSubresources _ => false

end XmlPointer
