import XmlPointer.Markup.Fault

/-! # Why a document cannot be had

A document fails to build when its bytes are not UTF-8, when it is malformed (a lexical fault
or a structural one, with a byte offset), or when it has no root element; a document named by
a location also fails when the location is no identifier or cannot be read. -/
namespace XmlPointer

/-- The causes of a malformed document. -/
inductive Malformation where
  | lexical (fault : Markup.Fault)
  | textOutsideRoot
  | cdataOutsideRoot
  | doctypeAfterRoot
  | unclosed (name : String)
  | multipleRoots
  | unboundPrefix (pre : String)
  | unexpectedEndTag (name : String)
  | mismatchedEndTag (name open_ : String)
  deriving Repr, DecidableEq

/-- The wording of a malformation. -/
def Malformation.text : Malformation → String
  | .lexical f => f.text
  | .textOutsideRoot => "character data outside the root element"
  | .cdataOutsideRoot => "CDATA section outside the root element"
  | .doctypeAfterRoot => "DOCTYPE after the root element"
  | .unclosed n => "unclosed element <" ++ n ++ ">"
  | .multipleRoots => "multiple root elements"
  | .unboundPrefix p => "unbound namespace prefix `" ++ p ++ "`"
  | .unexpectedEndTag n => "unexpected end tag </" ++ n ++ ">"
  | .mismatchedEndTag n o => "end tag </" ++ n ++ "> does not match <" ++ o ++ ">"

/-- Why a document could not be read from its location. -/
inductive ReadFailure where
  | notFound
  | isDirectory
  /-- A file stands where the path needs a directory. -/
  | notDirectory
  | noHandler (uri : String)
  deriving Repr, DecidableEq

/-- The wording of a read failure. -/
def ReadFailure.text : ReadFailure → String
  | .notFound => "No such file or directory (os error 2)"
  | .isDirectory => "Is a directory (os error 21)"
  | .notDirectory => "Not a directory (os error 20)"
  | .noHandler uri => "no handler for `" ++ uri ++ "`"

/-- Why a document cannot be had. -/
inductive DocumentError where
  | malformed (cause : Malformation) (position : Nat)
  | invalidUtf8 (position : Nat)
  | noRootElement
  | invalidLocation (location reason : String)
  | unreadable (failure : ReadFailure)
  deriving Repr, DecidableEq

/-- The message of a document error. -/
def DocumentError.message : DocumentError → String
  | .malformed c p => "malformed XML at byte " ++ toString p ++ ": " ++ c.text
  | .invalidUtf8 p => "document is not valid UTF-8 (invalid byte at " ++ toString p ++ ")"
  | .noRootElement => "document has no root element"
  | .invalidLocation l r => "invalid document location `" ++ l ++ "`: " ++ r
  | .unreadable f => "failed to read document: " ++ f.text

end XmlPointer
