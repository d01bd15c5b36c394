import Mathlib
import XmlPointer.Proofs.PathParsing

/-! # The grammar of XPath expressions

The expressions of XPath 1.0 as a grammar over token kinds, each derivation with the tree it
stands for. Six binary levels, loosest first, each an operand of the next level followed by
operators of its own (`OrExpr` to `MultiplicativeExpr`), unary minus before a union, unions of
path expressions, and path expressions that are location paths or filter expressions, the latter
with an optional `/` or `//` and a relative path after them. The tree nests every binary
operator and `|` to the left, and the abbreviations `//`, `.`, `..` and `@` stand for the steps
they abbreviate. The operators of each level and the axis names are given by their own tables,
the XPath 1.0 ones, and not by the tables the parser uses.

The parser reads the tokens the lexer gives: `eof` last and nowhere before it, and node type
tokens only for the four node type names (`Lexed`, `tokenize_lexed`). -/
namespace XmlPointer.Path

open TokenParser

/-- The binary operators by precedence level, loosest first: `or`; `and`; `=` and `!=`; `<`,
`<=`, `>` and `>=`; `+` and `-`; `*`, `div` and `mod`. -/
def binaryOperators : List (Nat × PathToken × BinaryOp) :=
  [(0, .orOp, .orOp), (1, .andOp, .andOp), (2, .eq, .eq), (2, .notEq, .notEq),
    (3, .lt, .lt), (3, .ltEq, .ltEq), (3, .gt, .gt), (3, .gtEq, .gtEq),
    (4, .plus, .add), (4, .minus, .sub), (5, .multiply, .mul), (5, .divOp, .div),
    (5, .modOp, .mod)]

/-- The thirteen axis names of XPath 1.0. -/
def axisNames : List (String × Axis) :=
  [("ancestor", .ancestor), ("ancestor-or-self", .ancestorOrSelf), ("attribute", .attribute),
    ("child", .child), ("descendant", .descendant), ("descendant-or-self", .descendantOrSelf),
    ("following", .following), ("following-sibling", .followingSibling),
    ("namespace", .namespaceAxis), ("parent", .parent), ("preceding", .preceding),
    ("preceding-sibling", .precedingSibling), ("self", .selfAxis)]

/-- The nonterminals of the expression grammar. `level l` for `l ≤ 5` is the binary expression
of precedence level `l`, `level 6` a unary expression; `operators l lhs` and `unions lhs` are
the repetitions that follow a first operand `lhs`, and `moreSteps` the steps after the first
step of a relative path. -/
inductive Nonterminal where
  | level (l : Nat)
  | operators (l : Nat) (lhs : Expr)
  | union
  | unions (lhs : Expr)
  | path
  | filter
  | primary
  | args
  | predicates
  | relativePath
  | moreSteps
  | step
  | nodeTest

/-- The kind of tree a derivation of a nonterminal stands for. -/
def Nonterminal.Value : Nonterminal → Type
  | .args | .predicates => List Expr
  | .relativePath | .moreSteps => List (Step Expr)
  | .step => Step Expr
  | .nodeTest => NodeTest
  | _ => Expr

def descendantOrSelfStep : Step Expr := ⟨.descendantOrSelf, .node, []⟩

/-- `Derives s ts v`: the token kinds `ts` derive the nonterminal `s`, and `v` is the tree of
the derivation. -/
inductive Derives : (s : Nonterminal) → List PathToken → s.Value → Prop
  | level {l : Nat} {ts us : List PathToken} {a e : Expr} : l < 6 →
      Derives (.level (l + 1)) ts a → Derives (.operators l a) us e →
      Derives (.level l) (ts ++ us) e
  | opsNil {l : Nat} {a : Expr} : Derives (.operators l a) [] a
  | opsCons {l : Nat} {t : PathToken} {op : BinaryOp} {a b e : Expr} {us vs : List PathToken} :
      (l, t, op) ∈ binaryOperators → Derives (.level (l + 1)) us b →
      Derives (.operators l (.binary op a b)) vs e → Derives (.operators l a) (t :: us ++ vs) e
  | unary {ts : List PathToken} {e : Expr} : Derives .union ts e → Derives (.level 6) ts e
  | negate {ts : List PathToken} {e : Expr} :
      Derives (.level 6) ts e → Derives (.level 6) (.minus :: ts) (.negate e)
  | union {ts us : List PathToken} {a e : Expr} :
      Derives .path ts a → Derives (.unions a) us e → Derives .union (ts ++ us) e
  | unionsNil {a : Expr} : Derives (.unions a) [] a
  | unionsCons {a b e : Expr} {us vs : List PathToken} :
      Derives .path us b → Derives (.unions (.union a b)) vs e →
      Derives (.unions a) (.pipe :: us ++ vs) e
  | root : Derives .path [.slash] (.rootPath [])
  | rootPath {ts : List PathToken} {steps : List (Step Expr)} :
      Derives .relativePath ts steps → Derives .path (.slash :: ts) (.rootPath steps)
  | rootDescendants {ts : List PathToken} {steps : List (Step Expr)} :
      Derives .relativePath ts steps →
      Derives .path (.doubleSlash :: ts) (.rootPath (descendantOrSelfStep :: steps))
  | relativePath {ts : List PathToken} {steps : List (Step Expr)} :
      Derives .relativePath ts steps → Derives .path ts (.relativePath steps)
  | filter {ts : List PathToken} {e : Expr} : Derives .filter ts e → Derives .path ts e
  | filterPath {ts us : List PathToken} {e : Expr} {steps : List (Step Expr)} :
      Derives .filter ts e → Derives .relativePath us steps →
      Derives .path (ts ++ .slash :: us) (.exprPath e steps)
  | filterDescendants {ts us : List PathToken} {e : Expr} {steps : List (Step Expr)} :
      Derives .filter ts e → Derives .relativePath us steps →
      Derives .path (ts ++ .doubleSlash :: us) (.exprPath e (descendantOrSelfStep :: steps))
  | primary {ts : List PathToken} {e : Expr} : Derives .primary ts e → Derives .filter ts e
  | filtered {ts us : List PathToken} {e p : Expr} {ps : List Expr} :
      Derives .primary ts e → Derives .predicates us (p :: ps) →
      Derives .filter (ts ++ us) (.filter e (p :: ps))
  | var (n : String) : Derives .primary [.variable n] (.variable n)
  | lit (s : String) : Derives .primary [.literal s] (.literal s)
  | num (v : Float) : Derives .primary [.number v] (.number v)
  | parens {ts : List PathToken} {e : Expr} :
      Derives (.level 0) ts e → Derives .primary (.leftParen :: ts ++ [.rightParen]) e
  | call (n : String) :
      Derives .primary [.functionName n, .leftParen, .rightParen] (.call n [])
  | callArgs {n : String} {ts : List PathToken} {es : List Expr} :
      Derives .args ts es →
      Derives .primary (.functionName n :: .leftParen :: ts ++ [.rightParen]) (.call n es)
  | arg {ts : List PathToken} {e : Expr} : Derives (.level 0) ts e → Derives .args ts [e]
  | argsCons {ts us : List PathToken} {e : Expr} {es : List Expr} :
      Derives (.level 0) ts e → Derives .args us es → Derives .args (ts ++ .comma :: us) (e :: es)
  | predsNil : Derives .predicates [] []
  | predsCons {ts us : List PathToken} {e : Expr} {es : List Expr} :
      Derives (.level 0) ts e → Derives .predicates us es →
      Derives .predicates (.leftBracket :: ts ++ .rightBracket :: us) (e :: es)
  | steps {ts us : List PathToken} {s : Step Expr} {ss : List (Step Expr)} :
      Derives .step ts s → Derives .moreSteps us ss → Derives .relativePath (ts ++ us) (s :: ss)
  | stepsNil : Derives .moreSteps [] []
  | slashStep {us vs : List PathToken} {s : Step Expr} {ss : List (Step Expr)} :
      Derives .step us s → Derives .moreSteps vs ss → Derives .moreSteps (.slash :: us ++ vs) (s :: ss)
  | doubleSlashStep {us vs : List PathToken} {s : Step Expr} {ss : List (Step Expr)} :
      Derives .step us s → Derives .moreSteps vs ss →
      Derives .moreSteps (.doubleSlash :: us ++ vs) (descendantOrSelfStep :: s :: ss)
  | self : Derives .step [.dot] ⟨.selfAxis, .node, []⟩
  | parent : Derives .step [.doubleDot] ⟨.parent, .node, []⟩
  | attributeStep {ts us : List PathToken} {test : NodeTest} {ps : List Expr} :
      Derives .nodeTest ts test → Derives .predicates us ps →
      Derives .step (.atSign :: ts ++ us) ⟨.attribute, test, ps⟩
  | axisStep {n : String} {a : Axis} {ts us : List PathToken} {test : NodeTest} {ps : List Expr} :
      (n, a) ∈ axisNames → Derives .nodeTest ts test → Derives .predicates us ps →
      Derives .step (.axisName n :: .doubleColon :: ts ++ us) ⟨a, test, ps⟩
  | childStep {ts us : List PathToken} {test : NodeTest} {ps : List Expr} :
      Derives .nodeTest ts test → Derives .predicates us ps →
      Derives .step (ts ++ us) ⟨.child, test, ps⟩
  | any : Derives .nodeTest [.nameTest none none] .any
  | name (l : String) : Derives .nodeTest [.nameTest none (some l)] (.name l)
  | anyIn (p : String) : Derives .nodeTest [.nameTest (some p) none] (.anyIn p)
  | qualified (p l : String) : Derives .nodeTest [.nameTest (some p) (some l)] (.qualified p l)
  | node : Derives .nodeTest [.nodeType "node", .leftParen, .rightParen] .node
  | text : Derives .nodeTest [.nodeType "text", .leftParen, .rightParen] .text
  | comment : Derives .nodeTest [.nodeType "comment", .leftParen, .rightParen] .comment
  | instruction :
      Derives .nodeTest [.nodeType "processing-instruction", .leftParen, .rightParen]
        (.instruction none)
  | instructionTarget (s : String) :
      Derives .nodeTest [.nodeType "processing-instruction", .leftParen, .literal s, .rightParen]
        (.instruction (some s))

theorem levelOperator_eq_some_iff {l : Nat} {t : PathToken} {op : BinaryOp} :
    levelOperator l t = some op ↔ (l, t, op) ∈ binaryOperators := by
  constructor
  · intro h
    unfold levelOperator at h
    split at h <;> cases h <;> simp [binaryOperators]
  · have table : ∀ x ∈ binaryOperators, levelOperator x.1 x.2.1 = some x.2.2 := by decide
    exact table _

theorem Axis.ofName?_eq_some_iff {n : String} {a : Axis} :
    Axis.ofName? n = some a ↔ (n, a) ∈ axisNames := by
  constructor
  · intro h
    unfold Axis.ofName? at h
    split at h <;> cases h <;> simp [axisNames]
  · have table : ∀ x ∈ axisNames, Axis.ofName? x.1 = some x.2 := by decide
    exact table _

section First

/-- The tokens a primary expression starts with. -/
def startsPrimary : PathToken → Bool
  | .variable _ | .literal _ | .number _ | .leftParen | .functionName _ => true
  | _ => false

/-- The tokens a path expression starts with: `/`, `//`, a step or a primary expression. -/
def startsPath : PathToken → Bool
  | .slash | .doubleSlash => true
  | t => startsStep t || startsPrimary t

/-- The tokens an expression starts with: unary minus or a path expression. -/
def startsExpr : PathToken → Bool
  | .minus => true
  | t => startsPath t

/-- The tokens a node test starts with. -/
def startsNodeTest : PathToken → Bool
  | .nameTest _ _ | .nodeType _ => true
  | _ => false

def StartsWith (p : PathToken → Bool) (ts : List PathToken) : Prop :=
  ∃ t r, ts = t :: r ∧ p t = true

theorem StartsWith.append {p : PathToken → Bool} {ts : List PathToken} (h : StartsWith p ts)
    (us : List PathToken) : StartsWith p (ts ++ us) := by
  obtain ⟨t, r, rfl, ht⟩ := h
  exact ⟨t, r ++ us, rfl, ht⟩

theorem StartsWith.mono {p p' : PathToken → Bool} {ts : List PathToken} (h : StartsWith p ts)
    (hp : ∀ t, p t = true → p' t = true) : StartsWith p' ts := by
  obtain ⟨t, r, rfl, ht⟩ := h
  exact ⟨t, r, rfl, hp t ht⟩

theorem startsPath_of_startsStep {t : PathToken} (h : startsStep t = true) : startsPath t = true := by
  cases t <;> simp_all [startsPath, startsStep]

theorem startsPath_of_startsPrimary {t : PathToken} (h : startsPrimary t = true) :
    startsPath t = true := by
  cases t <;> simp_all [startsPath, startsPrimary]

theorem startsExpr_of_startsPath {t : PathToken} (h : startsPath t = true) : startsExpr t = true := by
  cases t <;> simp_all [startsExpr, startsPath]

theorem startsStep_of_startsNodeTest {t : PathToken} (h : startsNodeTest t = true) :
    startsStep t = true := by
  cases t <;> simp_all [startsStep, startsNodeTest]

/-- What every derivation of a nonterminal starts with; the repetitions may derive nothing. -/
def Begins : Nonterminal → List PathToken → Prop
  | .level _ | .args => StartsWith startsExpr
  | .union | .path => StartsWith startsPath
  | .filter | .primary => StartsWith startsPrimary
  | .relativePath | .step => StartsWith startsStep
  | .nodeTest => StartsWith startsNodeTest
  | .operators _ _ | .unions _ | .predicates | .moreSteps => fun _ => True

theorem Derives.begins {s : Nonterminal} {ts : List PathToken} {v : s.Value} (h : Derives s ts v) :
    Begins s ts := by
  induction h with
  | level _ _ _ ih _ => exact ih.append _
  | opsNil | opsCons | unionsNil | unionsCons | predsNil | predsCons | stepsNil | slashStep
    | doubleSlashStep => trivial
  | unary _ ih => exact ih.mono fun _ => startsExpr_of_startsPath
  | negate => exact ⟨_, _, rfl, rfl⟩
  | union _ _ ih _ => exact ih.append _
  | root | rootPath | rootDescendants => exact ⟨_, _, rfl, rfl⟩
  | relativePath _ ih => exact ih.mono fun _ => startsPath_of_startsStep
  | filter _ ih => exact ih.mono fun _ => startsPath_of_startsPrimary
  | filterPath _ _ ih _ | filterDescendants _ _ ih _ =>
    exact (ih.append _).mono fun _ => startsPath_of_startsPrimary
  | primary _ ih => exact ih
  | filtered _ _ ih _ => exact ih.append _
  | var | lit | num | parens | call | callArgs => exact ⟨_, _, rfl, rfl⟩
  | arg _ ih => exact ih
  | argsCons _ _ ih _ => exact ih.append _
  | steps _ _ ih _ => exact ih.append _
  | self | parent | attributeStep | axisStep => exact ⟨_, _, rfl, rfl⟩
  | childStep _ _ ih _ => exact (ih.append _).mono fun _ => startsStep_of_startsNodeTest
  | any | name | anyIn | qualified | node | text | comment | instruction | instructionTarget =>
    exact ⟨_, _, rfl, rfl⟩

end First

section Lexed

/-- A node type token names one of the four node types. -/
def NamesNodeType : PathToken → Prop
  | .nodeType k => k ∈ nodeTypeNames
  | _ => True

theorem classify_namesNodeType (qname : String) (pre : Option String) (l : String)
    (rest : List Char) (h : pre = none → qname = l) : NamesNodeType (classify qname pre l rest) := by
  simp only [classify]
  split
  · trivial
  · split
    · rename_i hc
      simp only [Bool.and_eq_true, Option.isNone_iff_eq_none, List.contains_iff_mem] at hc
      rw [NamesNodeType, h hc.1]
      exact hc.2
    · trivial
  · trivial

theorem operatorWord_namesNodeType {n : String} {t : PathToken} (h : operatorWord n = some t) :
    NamesNodeType t := by
  unfold operatorWord at h
  split at h <;> cases h <;> trivial

theorem scanName_namesNodeType (b : Bool) (cs : List Char) : NamesNodeType (scanName b cs).1 := by
  unfold scanName
  split
  rename_i first rest _
  dsimp only
  split
  · rename_i op hop
    apply operatorWord_namesNodeType (n := String.ofList first)
    split at hop
    · exact hop
    · cases hop
  · split
    · trivial
    · split
      · -- a prefixed name is never a node type
        exact classify_namesNodeType _ _ _ _ (fun h => by cases h)
      · exact classify_namesNodeType _ _ _ _ (fun _ => rfl)
    · exact classify_namesNodeType _ _ _ _ (fun _ => rfl)

theorem scanLiteral_namesNodeType {q : Char} {body : List Char} {start : Nat} {lx : Lexeme}
    (h : scanLiteral q body start = .ok lx) : NamesNodeType lx.1 := by
  unfold scanLiteral at h
  split at h
  split at h
  · cases h
    trivial
  · cases h

theorem singleToken_namesNodeType {c : Char} {t : PathToken} (h : singleToken c = some t) :
    NamesNodeType t := by
  unfold singleToken at h
  split at h <;> cases h <;> trivial

/-- Node type tokens come only from names, which `classify` makes node types only when they are
unprefixed node type names. -/
theorem scanToken_namesNodeType {b : Bool} {start : Nat} {cs : List Char} {lx : Lexeme}
    (h : scanToken b start cs = .ok lx) : NamesNodeType lx.1 := by
  unfold scanToken at h
  split at h
  · cases h; trivial
  · cases h; trivial
  · cases h; trivial
  · cases h; trivial
  · split at h <;> (cases h; trivial)
  · cases h; trivial
  · cases h; trivial
  · cases h; trivial
  · cases h; trivial
  · cases h; trivial
  · cases h; trivial
  · cases h; trivial
  · cases h
    cases b <;> trivial
  · exact scanLiteral_namesNodeType h
  · split at h
    split at h
    · cases h
    · cases h; trivial
  · split at h
    · exact scanLiteral_namesNodeType h
    · split at h
      · cases h; trivial
      · split at h
        · cases h
          exact scanName_namesNodeType _ _
        · split at h
          · cases h
            exact singleToken_namesNodeType (by assumption)
          · cases h

def Lexed (ts : Tokens) : Prop :=
  ∃ body p, ts = body ++ [(.eof, p)] ∧ ∀ x ∈ body, x.1 ≠ .eof ∧ NamesNodeType x.1

theorem Lexed.eof (p : Nat) : Lexed [(.eof, p)] :=
  ⟨[], p, rfl, by simp⟩

theorem Lexed.cons {t : PathToken} {q : Nat} {ts : Tokens} (ht : t ≠ .eof) (hn : NamesNodeType t)
    (h : Lexed ts) : Lexed ((t, q) :: ts) := by
  obtain ⟨body, p, rfl, hbody⟩ := h
  refine ⟨(t, q) :: body, p, rfl, ?_⟩
  rintro x (_ | ⟨_, hx⟩)
  · exact ⟨ht, hn⟩
  · exact hbody x hx

theorem Lexed.ne_nil {ts : Tokens} (h : Lexed ts) : ts ≠ [] := by
  obtain ⟨body, p, rfl, -⟩ := h
  simp

theorem Lexed.tail {t : PathToken} {q : Nat} {ts : Tokens} (h : Lexed ((t, q) :: ts))
    (ht : t ≠ .eof) : Lexed ts := by
  obtain ⟨_ | ⟨x, body⟩, p, heq, hbody⟩ := h
  · cases heq
    exact absurd rfl ht
  · cases heq
    exact ⟨body, p, rfl, fun y hy => hbody y (List.mem_cons_of_mem _ hy)⟩

theorem Lexed.eof_last {q : Nat} {ts : Tokens} (h : Lexed ((.eof, q) :: ts)) : ts = [] := by
  obtain ⟨_ | ⟨x, body⟩, p, heq, hbody⟩ := h
  · cases heq
    rfl
  · cases heq
    exact absurd rfl (hbody _ List.mem_cons_self).1

theorem Lexed.namesNodeType {t : PathToken} {q : Nat} {ts : Tokens} (h : Lexed ((t, q) :: ts)) :
    NamesNodeType t := by
  obtain ⟨_ | ⟨x, body⟩, p, heq, hbody⟩ := h
  · cases heq
    trivial
  · cases heq
    exact (hbody _ List.mem_cons_self).2

theorem tokensFrom_lexed {fuel : Nat} {b : Bool} {pos : Nat} {cs : List Char} {ts : Tokens}
    (h : tokensFrom fuel b pos cs = .ok ts) : Lexed ts := by
  induction fuel generalizing b pos cs ts with
  | zero =>
    cases h
    exact .eof pos
  | succ fuel ih =>
    unfold tokensFrom at h
    split at h
    dsimp only at h
    split at h
    · cases h
    · cases h
      exact .eof _
    · rename_i t w rest hne hscan
      split at h
      · cases h
      · cases h
        exact .cons hne (scanToken_namesNodeType hscan) (ih ‹_›)

theorem tokenize_lexed {s : String} {ts : Tokens} (h : tokenize s = .ok ts) : Lexed ts :=
  tokensFrom_lexed h

end Lexed

end XmlPointer.Path
