import XmlPointer.Binary64.Text

/-! # Tokens of XPath

The tokens of an expression, and the text by which a syntax error message names a token:
the token's kind, with its number, string or names in brackets. Numbers there are written with
their shortest digits and at least one fraction digit, switching to an exponent below `1e-4`
and from `1e16` on. -/
namespace XmlPointer.Path

/-- A token of an XPath expression. -/
inductive PathToken where
  | slash
  | doubleSlash
  | dot
  | doubleDot
  | atSign
  | pipe
  | plus
  | minus
  | multiply
  | eq
  | notEq
  | lt
  | ltEq
  | gt
  | gtEq
  | andOp
  | orOp
  | modOp
  | divOp
  | leftParen
  | rightParen
  | leftBracket
  | rightBracket
  | comma
  | doubleColon
  | number (value : Float)
  | literal (value : String)
  | variable (name : String)
  /-- `*`, `prefix:*`, `name` or `prefix:name`; no local part for the wildcards. -/
  | nameTest (pre : Option String) (localPart : Option String)
  /-- A name followed by `(`. -/
  | functionName (name : String)
  /-- `node`, `text`, `comment` or `processing-instruction` followed by `(`. -/
  | nodeType (name : String)
  /-- A name followed by `::`. -/
  | axisName (name : String)
  | eof
  deriving Repr, Inhabited

namespace PathToken

/-- After these tokens an operand is expected, so `*` is a name test and `and`, `or`, `mod`
and `div` are names. -/
def expectsOperand : PathToken → Bool
  | .atSign | .doubleColon | .leftParen | .leftBracket | .comma | .slash | .doubleSlash | .pipe
  | .plus | .minus | .multiply | .eq | .notEq | .lt | .ltEq | .gt | .gtEq | .andOp | .orOp
  | .modOp | .divOp => true
  | _ => false

/-- The same token kind, with the same payload (numbers compared as numbers). -/
def sameAs : PathToken → PathToken → Bool
  | .number a, .number b => a == b
  | .literal a, .literal b => a == b
  | .variable a, .variable b => a == b
  | .nameTest p l, .nameTest q m => p == q && l == m
  | .functionName a, .functionName b => a == b
  | .nodeType a, .nodeType b => a == b
  | .axisName a, .axisName b => a == b
  | .slash, .slash | .doubleSlash, .doubleSlash | .dot, .dot | .doubleDot, .doubleDot
  | .atSign, .atSign | .pipe, .pipe | .plus, .plus | .minus, .minus | .multiply, .multiply
  | .eq, .eq | .notEq, .notEq | .lt, .lt | .ltEq, .ltEq | .gt, .gt | .gtEq, .gtEq
  | .andOp, .andOp | .orOp, .orOp | .modOp, .modOp | .divOp, .divOp
  | .leftParen, .leftParen | .rightParen, .rightParen | .leftBracket, .leftBracket
  | .rightBracket, .rightBracket | .comma, .comma | .doubleColon, .doubleColon
  | .eof, .eof => true
  | _, _ => false

end PathToken

def messageNumberStyle : Binary64.Style :=
  ⟨"NaN", "inf", some (-4, 16), 1, true⟩

def hexText (n : Nat) : String :=
  String.ofList (Nat.toDigits 16 n)

/-- Characters written as `\u{…}` in a quoted message string: control characters, combining
marks and invisible format characters. -/
def isHiddenChar (c : Char) : Bool :=
  let n := c.toNat
  n < 0x20 || (0x7F ≤ n && n ≤ 0x9F) || n = 0xAD || (0x300 ≤ n && n ≤ 0x36F) ||
    (0x200B ≤ n && n ≤ 0x200F) || (0x2028 ≤ n && n ≤ 0x202E) || (0x2060 ≤ n && n ≤ 0x2064) ||
    n = 0xFEFF

/-- A character inside a quoted message string. -/
def quotedChar (c : Char) : String :=
  if c = '"' then "\\\""
  else if c = '\\' then "\\\\"
  else if c = '\n' then "\\n"
  else if c = '\r' then "\\r"
  else if c = '\t' then "\\t"
  else if c = Char.ofNat 0 then "\\0"
  else if isHiddenChar c then "\\u\x7b" ++ hexText c.toNat ++ "\x7d"
  else c.toString

def quoted (s : String) : String :=
  "\"" ++ String.join (s.toList.map quotedChar) ++ "\""

/-- An optional string as a message shows it. -/
def optionText : Option String → String
  | some s => "Some(" ++ quoted s ++ ")"
  | none => "None"

/-- How a syntax error message names a token. -/
def PathToken.text : PathToken → String
  | .slash => "Slash"
  | .doubleSlash => "DoubleSlash"
  | .dot => "Dot"
  | .doubleDot => "DoubleDot"
  | .atSign => "At"
  | .pipe => "Pipe"
  | .plus => "Plus"
  | .minus => "Minus"
  | .multiply => "Multiply"
  | .eq => "Eq"
  | .notEq => "NotEq"
  | .lt => "Lt"
  | .ltEq => "LtEq"
  | .gt => "Gt"
  | .gtEq => "GtEq"
  | .andOp => "And"
  | .orOp => "Or"
  | .modOp => "Mod"
  | .divOp => "Div"
  | .leftParen => "LeftParen"
  | .rightParen => "RightParen"
  | .leftBracket => "LeftBracket"
  | .rightBracket => "RightBracket"
  | .comma => "Comma"
  | .doubleColon => "DoubleColon"
  | .number v => "Number(" ++ messageNumberStyle.render v ++ ")"
  | .literal s => "Literal(" ++ quoted s ++ ")"
  | .variable s => "Variable(" ++ quoted s ++ ")"
  | .nameTest p l => "NameTest \x7b prefix: " ++ optionText p ++ ", local: " ++ optionText l ++ " \x7d"
  | .functionName s => "FunctionName(" ++ quoted s ++ ")"
  | .nodeType s => "NodeType(" ++ quoted s ++ ")"
  | .axisName s => "AxisName(" ++ quoted s ++ ")"
  | .eof => "Eof"

end XmlPointer.Path
