import XmlPointer.Path.Error
import XmlPointer.Path.Number
import XmlPointer.Text.Name

/-! # Reading an expression into tokens

Blanks between tokens are skipped. Whether `*` multiplies and whether `and`, `or`, `mod` and
`div` are operators depends on the token before: after an operand they are operators, after an
operator or an opening bracket (and at the start) they are names. A name is classified by what
follows it, blanks skipped: `::` makes it an axis, `(` a node type or function, anything else a
name test. Each token carries the byte offset of its first character; the list ends with
`eof`. -/
namespace XmlPointer.Path

def byteLength (cs : List Char) : Nat :=
  cs.foldl (fun n c => n + c.utf8Size) 0

/-- A non-colonized name at the front of the input, and the rest. -/
def takeNCName : List Char → List Char × List Char
  | c :: cs =>
    if Text.isNameStart c then
      let (name, rest) := cs.span Text.isNameChar
      (c :: name, rest)
    else ([], c :: cs)
  | [] => ([], [])

/-- A name with an optional prefix at the front of the input, and the rest. -/
def takeQName (cs : List Char) : List Char × List Char :=
  let (first, rest) := takeNCName cs
  match rest with
  | ':' :: c :: more =>
    if Text.isNameStart c then
      let (second, after) := takeNCName (c :: more)
      (first ++ ':' :: second, after)
    else (first, rest)
  | _ => (first, rest)

def nodeTypeNames : List String :=
  ["node", "text", "comment", "processing-instruction"]

/-- A name token, by what follows it. -/
def classify (qname : String) (pre : Option String) (localPart : String)
    (rest : List Char) : PathToken :=
  let after := rest.dropWhile Text.isXmlBlank
  match pre, after with
  | none, ':' :: ':' :: _ => .axisName qname
  | _, '(' :: _ =>
    if pre.isNone && nodeTypeNames.contains localPart then .nodeType qname
    else .functionName qname
  | _, _ => .nameTest pre (some localPart)

/-- The operator named by a word, where an operator may stand. -/
def operatorWord : String → Option PathToken
  | "and" => some .andOp
  | "or" => some .orOp
  | "mod" => some .modOp
  | "div" => some .divOp
  | _ => none

/-- A lexeme: the token, the count of bytes it takes and the input after it. -/
abbrev Lexeme := PathToken × Nat × List Char

/-- A name at the front of the input (it starts with a name-start character). -/
def scanName (operatorAllowed : Bool) (cs : List Char) : Lexeme :=
  let (first, rest) := takeNCName cs
  let name := String.ofList first
  let width := byteLength first
  match (if operatorAllowed then operatorWord name else none) with
  | some op => (op, width, rest)
  | none =>
    match rest with
    | ':' :: '*' :: after => (.nameTest (some name) none, width + 2, after)
    | ':' :: c :: more =>
      if Text.isNameStart c then
        let (second, after) := takeNCName (c :: more)
        let localPart := String.ofList second
        (classify (name ++ ":" ++ localPart) (some name) localPart after,
          width + 1 + byteLength second, after)
      else (classify name none name rest, width, rest)
    | _ => (classify name none name rest, width, rest)

/-- A number at the front of the input: digits, then a point and digits, either part
possibly empty. -/
def scanNumber (cs : List Char) : Lexeme :=
  let (whole, rest) := cs.span Char.isDigit
  let (fraction, after) := match rest with
    | '.' :: more =>
      let (digits, after) := more.span Char.isDigit
      ('.' :: digits, after)
    | _ => ([], rest)
  let text := whole ++ fraction
  let parts := decimalParts text
  (.number (Binary64.ofDecimal false parts.1 parts.2), text.length, after)

/-- A literal at the front of the input, after its opening quote. -/
def scanLiteral (quote : Char) (body : List Char) (start : Nat) :
    Except PathError Lexeme :=
  let (value, rest) := body.span (· ≠ quote)
  match rest with
  | _ :: after => .ok (.literal (String.ofList value), byteLength value + 2, after)
  | [] => .error (.invalid .unterminatedLiteral start)

/-- The single-character tokens. -/
def singleToken : Char → Option PathToken
  | '@' => some .atSign
  | '|' => some .pipe
  | '+' => some .plus
  | '-' => some .minus
  | '=' => some .eq
  | '(' => some .leftParen
  | ')' => some .rightParen
  | '[' => some .leftBracket
  | ']' => some .rightBracket
  | ',' => some .comma
  | _ => none

/-- The token at the front of the input, which starts at byte `start` and has no leading
blank. -/
def scanToken (operatorAllowed : Bool) (start : Nat) : List Char → Except PathError Lexeme
  | [] => .ok (.eof, 0, [])
  | '/' :: '/' :: rest => .ok (.doubleSlash, 2, rest)
  | '/' :: rest => .ok (.slash, 1, rest)
  | '.' :: '.' :: rest => .ok (.doubleDot, 2, rest)
  | '.' :: d :: rest =>
    if d.isDigit then .ok (scanNumber ('.' :: d :: rest)) else .ok (.dot, 1, d :: rest)
  | ['.'] => .ok (.dot, 1, [])
  | '!' :: '=' :: rest => .ok (.notEq, 2, rest)
  | '<' :: '=' :: rest => .ok (.ltEq, 2, rest)
  | '<' :: rest => .ok (.lt, 1, rest)
  | '>' :: '=' :: rest => .ok (.gtEq, 2, rest)
  | '>' :: rest => .ok (.gt, 1, rest)
  | ':' :: ':' :: rest => .ok (.doubleColon, 2, rest)
  | '*' :: rest =>
    .ok (if operatorAllowed then .multiply else .nameTest none none, 1, rest)
  | '"' :: rest => scanLiteral '"' rest start
  | '$' :: rest =>
    let (name, after) := takeQName rest
    if name.isEmpty then .error (.invalid .missingVariableName start)
    else .ok (.variable (String.ofList name), 1 + byteLength name, after)
  | c :: rest =>
    if c = Char.ofNat 0x27 then scanLiteral c rest start
    else if c.isDigit then .ok (scanNumber (c :: rest))
    else if Text.isNameStart c then .ok (scanName operatorAllowed (c :: rest))
    else match singleToken c with
      | some t => .ok (t, 1, rest)
      | none => .error (.invalid (.strayChar c) start)

/-- The tokens from byte `pos` on, at most `fuel` of them before `eof`. -/
def tokensFrom : Nat → Bool → Nat → List Char → Except PathError (List (PathToken × Nat))
  | 0, _, pos, _ => .ok [(.eof, pos)]
  | fuel + 1, operatorAllowed, pos, cs =>
    let (blanks, body) := cs.span Text.isXmlBlank
    let start := pos + byteLength blanks
    match scanToken operatorAllowed start body with
    | .error e => .error e
    | .ok (.eof, _, _) => .ok [(.eof, start)]
    | .ok (t, width, rest) =>
      match tokensFrom fuel (!t.expectsOperand) (start + width) rest with
      | .error e => .error e
      | .ok ts => .ok ((t, start) :: ts)

def tokenize (s : String) : Except PathError (List (PathToken × Nat)) :=
  tokensFrom (s.length + 1) false 0 s.toList

end XmlPointer.Path
