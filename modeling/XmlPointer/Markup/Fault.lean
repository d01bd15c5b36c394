/-! # Lexical faults of markup

A lexical fault of the tokenizer or of an attribute region, with the byte offset where it was
found. `Fault.text` is the wording of each cause. -/
namespace XmlPointer.Markup

/-- The causes of a lexical fault. -/
inductive Fault where
  | unsupportedDeclaration
  | missingElementName
  | unterminatedStartTag
  | blankExpectedAfterName
  | missingEndTagName
  | malformedEndTag
  | unterminatedInstruction
  | missingInstructionTarget
  | unterminatedComment
  | unterminatedCData
  | unterminatedCommentInDoctype
  | unterminatedDoctype
  | malformedAttributeName
  | attributeWithoutValue
  | unquotedAttributeValue
  | unterminatedAttributeValue
  | ltInAttributeValue
  | duplicateAttribute
  deriving Repr, DecidableEq

/-- The wording of a fault. -/
def Fault.text : Fault → String
  | .unsupportedDeclaration => "Unsupported markup declaration"
  | .missingElementName => "Missing element name"
  | .unterminatedStartTag => "Unterminated start tag"
  | .blankExpectedAfterName => "Expected whitespace after element name"
  | .missingEndTagName => "Missing element name in end tag"
  | .malformedEndTag => "Malformed end tag"
  | .unterminatedInstruction => "Unterminated processing instruction"
  | .missingInstructionTarget => "Missing processing instruction target"
  | .unterminatedComment => "Unterminated comment"
  | .unterminatedCData => "Unterminated CDATA section"
  | .unterminatedCommentInDoctype => "Unterminated comment in DOCTYPE"
  | .unterminatedDoctype => "Unterminated DOCTYPE"
  | .malformedAttributeName => "Malformed attribute name"
  | .attributeWithoutValue => "Attribute without value"
  | .unquotedAttributeValue => "Attribute value must be quoted"
  | .unterminatedAttributeValue => "Unterminated attribute value"
  | .ltInAttributeValue => "'<' not allowed in attribute value"
  | .duplicateAttribute => "Duplicate attribute"

/-- A lexical fault at a byte offset of the input. -/
structure SyntaxError where
  fault : Fault
  position : Nat
  deriving Repr, DecidableEq

def SyntaxError.message (e : SyntaxError) : String :=
  e.fault.text ++ " at byte " ++ toString e.position

end XmlPointer.Markup
