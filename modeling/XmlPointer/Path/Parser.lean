import XmlPointer.Path.Lexer
import XmlPointer.Path.Expr

/-! # Parsing an expression

A recursive descent over the tokens of `tokenize`, by the grammar of XPath 1.0: `or` binds
loosest, then `and`, the equality, relational, additive and multiplicative operators, each
level associating to the left; then unary minus, union and path expressions. A syntax error
is placed at the token where it was found, or at `eof` when the input ran out.

The parser reads a list of tokens that ends with `eof`; reading never removes that last
token, so at the end every further read sees `eof` at the end's offset. Each function takes a
depth bound, which `parse` makes large enough for every input: every cycle among the functions
reads a token, so the nesting grows by a bounded amount per token. -/
namespace XmlPointer.Path

/-- The tokens not yet read, each with its byte offset; the last is `eof`. -/
abbrev Tokens := List (PathToken × Nat)

/-- A parser of XPath tokens. -/
abbrev TokenParser := StateT Tokens (Except PathError)

namespace TokenParser

/-- The next token, not read. -/
def peek : TokenParser PathToken := do
  match (← get) with
  | (t, _) :: _ => pure t
  | [] => pure .eof

/-- The offset of the next token. -/
def offset : TokenParser Nat := do
  match (← get) with
  | (_, p) :: _ => pure p
  | [] => pure 0

/-- Reads the next token; the final `eof` stays. -/
def advance : TokenParser PathToken := do
  match (← get) with
  | [(t, _)] => pure t
  | (t, _) :: rest => set rest; pure t
  | [] => pure .eof

def nextIs (t : PathToken) : TokenParser Bool := do
  pure ((← peek).sameAs t)

def fail {α : Type} (f : SyntaxFault) : TokenParser α := do
  throw (.invalid f (← offset))

def expect (t : PathToken) : TokenParser Unit := do
  if (← nextIs t) then discard advance else fail (.expected t)

/-- The operator of a precedence level, `or` at level 0 up to the multiplicative ones at
level 5. -/
def levelOperator : Nat → PathToken → Option BinaryOp
  | 0, .orOp => some .orOp
  | 1, .andOp => some .andOp
  | 2, .eq => some .eq
  | 2, .notEq => some .notEq
  | 3, .lt => some .lt
  | 3, .ltEq => some .ltEq
  | 3, .gt => some .gt
  | 3, .gtEq => some .gtEq
  | 4, .plus => some .add
  | 4, .minus => some .sub
  | 5, .multiply => some .mul
  | 5, .divOp => some .div
  | 5, .modOp => some .mod
  | _, _ => none

def lastLevel : Nat := 5

/-- The tokens that start a location step. -/
def startsStep : PathToken → Bool
  | .dot | .doubleDot | .atSign | .axisName _ | .nameTest _ _ | .nodeType _ => true
  | _ => false

/-- The node test of a name test token. -/
def nameNodeTest : Option String → Option String → NodeTest
  | none, none => .any
  | none, some l => .name l
  | some p, none => .anyIn p
  | some p, some l => .qualified p l

def exhausted {α : Type} : TokenParser α :=
  fail .endOfExpression

mutual

/-- An expression. -/
def expr : Nat → TokenParser Expr
  | 0 => exhausted
  | fuel + 1 => binaryLevel fuel 0

/-- The operands and operators of one precedence level. -/
def binaryLevel : Nat → Nat → TokenParser Expr
  | 0, _ => exhausted
  | fuel + 1, level => do
    let lhs ← operand fuel level
    binaryRest fuel level lhs

/-- An operand of a precedence level: an expression of the next level. -/
def operand : Nat → Nat → TokenParser Expr
  | 0, _ => exhausted
  | fuel + 1, level =>
    if level < lastLevel then binaryLevel fuel (level + 1) else unary fuel

/-- The operators of a level after its first operand, associating to the left. -/
def binaryRest : Nat → Nat → Expr → TokenParser Expr
  | 0, _, _ => exhausted
  | fuel + 1, level, lhs => do
    match levelOperator level (← peek) with
    | some op =>
      discard advance
      let rhs ← operand fuel level
      binaryRest fuel level (.binary op lhs rhs)
    | none => pure lhs

/-- Unary minus, any number of times, before a union. -/
def unary : Nat → TokenParser Expr
  | 0 => exhausted
  | fuel + 1 => do
    if (← nextIs .minus) then
      discard advance
      return .negate (← unary fuel)
    else union fuel

/-- Path expressions joined by `|`. -/
def union : Nat → TokenParser Expr
  | 0 => exhausted
  | fuel + 1 => do
    let lhs ← pathExpr fuel
    unionRest fuel lhs

/-- The operands of a union after its first one. -/
def unionRest : Nat → Expr → TokenParser Expr
  | 0, _ => exhausted
  | fuel + 1, lhs => do
    if (← nextIs .pipe) then
      discard advance
      let rhs ← pathExpr fuel
      unionRest fuel (.union lhs rhs)
    else pure lhs

/-- A location path, or a filter expression with an optional path after it. -/
def pathExpr : Nat → TokenParser Expr
  | 0 => exhausted
  | fuel + 1 => do
    match (← peek) with
    | .slash =>
      discard advance
      if startsStep (← peek) then return .rootPath (← relativePath fuel)
      else return .rootPath []
    | .doubleSlash =>
      discard advance
      return .rootPath (Step.along .descendantOrSelf :: (← relativePath fuel))
    | t =>
      if startsStep t then return .relativePath (← relativePath fuel)
      else filterPath fuel

/-- A primary expression, its predicates, and the path that may follow. -/
def filterPath : Nat → TokenParser Expr
  | 0 => exhausted
  | fuel + 1 => do
    let primary ← primaryExpr fuel
    let preds ← predicates fuel
    let start := if preds.isEmpty then primary else .filter primary preds
    match (← peek) with
    | .slash =>
      discard advance
      return .exprPath start (← relativePath fuel)
    | .doubleSlash =>
      discard advance
      return .exprPath start (Step.along .descendantOrSelf :: (← relativePath fuel))
    | _ => pure start

/-- Steps separated by `/` or `//`. -/
def relativePath : Nat → TokenParser (List (Step Expr))
  | 0 => exhausted
  | fuel + 1 => do
    let first ← step fuel
    return first :: (← stepsRest fuel)

/-- The steps of a relative path after its first one. -/
def stepsRest : Nat → TokenParser (List (Step Expr))
  | 0 => exhausted
  | fuel + 1 => do
    match (← peek) with
    | .slash =>
      discard advance
      let s ← step fuel
      return s :: (← stepsRest fuel)
    | .doubleSlash =>
      discard advance
      let s ← step fuel
      return Step.along .descendantOrSelf :: s :: (← stepsRest fuel)
    | _ => pure []

/-- One location step. -/
def step : Nat → TokenParser (Step Expr)
  | 0 => exhausted
  | fuel + 1 => do
    match (← peek) with
    | .dot =>
      discard advance
      pure (Step.along .selfAxis)
    | .doubleDot =>
      discard advance
      pure (Step.along .parent)
    | .atSign =>
      discard advance
      stepAfterAxis fuel .attribute
    | .axisName n =>
      let at_ ← offset
      discard advance
      match Axis.ofName? n with
      | some axis =>
        expect .doubleColon
        stepAfterAxis fuel axis
      | none => throw (.invalid (.unknownAxis n) at_)
    | _ => stepAfterAxis fuel .child

/-- The node test and predicates of a step along an axis. -/
def stepAfterAxis : Nat → Axis → TokenParser (Step Expr)
  | 0, _ => exhausted
  | fuel + 1, axis => do
    let test ← nodeTest
    return ⟨axis, test, ← predicates fuel⟩

/-- The predicates that follow. -/
def predicates : Nat → TokenParser (List Expr)
  | 0 => exhausted
  | fuel + 1 => do
    if (← nextIs .leftBracket) then
      expect .leftBracket
      let e ← expr fuel
      expect .rightBracket
      return e :: (← predicates fuel)
    else pure []

/-- A variable, literal, number, bracketed expression or function call. -/
def primaryExpr : Nat → TokenParser Expr
  | 0 => exhausted
  | fuel + 1 => do
    let at_ ← offset
    match (← advance) with
    | .variable n => pure (.variable n)
    | .literal s => pure (.literal s)
    | .number v => pure (.number v)
    | .leftParen =>
      let e ← expr fuel
      expect .rightParen
      pure e
    | .functionName n =>
      expect .leftParen
      let args ← if (← nextIs .rightParen) then pure [] else arguments fuel
      expect .rightParen
      pure (.call n args)
    | .eof => throw (.invalid .endOfExpression at_)
    | t => throw (.invalid (.unexpected t) at_)

/-- Arguments separated by commas. -/
def arguments : Nat → TokenParser (List Expr)
  | 0 => exhausted
  | fuel + 1 => do
    let e ← expr fuel
    if (← nextIs .comma) then
      discard advance
      return e :: (← arguments fuel)
    else pure [e]

/-- A node test: a name test, or a node type with its brackets. -/
def nodeTest : TokenParser NodeTest := do
  let at_ ← offset
  match (← advance) with
  | .nameTest p l => pure (nameNodeTest p l)
  | .nodeType kind =>
    expect .leftParen
    let test ← match kind with
      | "node" => pure NodeTest.node
      | "text" => pure NodeTest.text
      | "comment" => pure NodeTest.comment
      | _ => do
        match (← peek) with
        | .literal target =>
          discard advance
          pure (NodeTest.instruction (some target))
        | _ => pure (NodeTest.instruction none)
    expect .rightParen
    pure test
  | t => throw (.invalid (.noNodeTest t) at_)

end

end TokenParser

/-- The expression of a text, or why it is none. -/
def parse (s : String) : Except PathError Expr := do
  let tokens ← tokenize s
  let (e, rest) ← (TokenParser.expr (32 * (tokens.length + 1))).run tokens
  match rest with
  | (.eof, _) :: _ | [] => pure e
  | (t, p) :: _ => throw (.invalid (.trailing t) p)

end XmlPointer.Path
