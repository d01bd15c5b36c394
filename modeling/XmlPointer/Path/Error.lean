import XmlPointer.Path.Token

/-! # Errors of XPath

An expression fails to parse (at a byte offset, for a reason of `SyntaxFault`), or its
evaluation meets an unknown function, a call with a wrong count of arguments, a prefix or
variable that is not bound, or a value that is not the node-set an operation needs. -/
namespace XmlPointer.Path

/-- Why an expression does not parse. -/
inductive SyntaxFault where
  /-- A character that starts no token. -/
  | strayChar (c : Char)
  | unterminatedLiteral
  | missingVariableName
  /-- A token other than the punctuation that the grammar needs here. -/
  | expected (what : PathToken)
  | unknownAxis (name : String)
  | noNodeTest (found : PathToken)
  | endOfExpression
  | unexpected (found : PathToken)
  /-- A whole expression was read, and more tokens follow. -/
  | trailing (found : PathToken)
  deriving Repr

/-- The spelling of a punctuation token, as the expression writes it. -/
def PathToken.spelling : PathToken → String
  | .doubleColon => "::"
  | .leftParen => "("
  | .rightParen => ")"
  | .leftBracket => "["
  | .rightBracket => "]"
  | t => t.text

/-- The text of a syntax fault. -/
def SyntaxFault.text : SyntaxFault → String
  | .strayChar c => "unexpected character `" ++ c.toString ++ "`"
  | .unterminatedLiteral => "unterminated string literal"
  | .missingVariableName => "expected a variable name after `$`"
  | .expected t => "expected `" ++ t.spelling ++ "`"
  | .unknownAxis n => "unknown axis `" ++ n ++ "`"
  | .noNodeTest t => "expected a node test, found " ++ t.text
  | .endOfExpression => "unexpected end of expression"
  | .unexpected t => "unexpected " ++ t.text
  | .trailing t => "unexpected " ++ t.text ++ " after expression"

/-- Why an expression has no value. -/
inductive PathError where
  | invalid (fault : SyntaxFault) (position : Nat)
  | unknownFunction (name : String)
  /-- A call with a count of arguments that the function does not take. -/
  | argument (function message : String)
  | unboundPrefix (pre : String)
  | unboundVariable (name : String)
  /-- An operation needs a node-set and got a value of the named type. -/
  | notNodeSet (found : String)
  deriving Repr

/-- The message of an XPath error. -/
def PathError.message : PathError → String
  | .invalid f p => "invalid expression at offset " ++ toString p ++ ": " ++ f.text
  | .unknownFunction n => "unknown function `" ++ n ++ "`"
  | .argument f m => f ++ "(): " ++ m
  | .unboundPrefix p => "namespace prefix `" ++ p ++ "` is not bound"
  | .unboundVariable n => "variable `$" ++ n ++ "` is not bound"
  | .notNodeSet t => "expected a node-set, found " ++ t

end XmlPointer.Path
