import Mathlib
import XmlPointer.Proofs.ElementPaths

/-! # Reading expressions into tokens

The lexical rules of XPath 1.0 (§3.7) for the lexer of `Path.tokenize`. Each token is read from
a lexeme that spells it (`PathToken.Spelled`), and is classified by the token before it and by
what follows the lexeme (`Classified`): `*` multiplies and `and`, `or`, `mod`, `div` are operators
exactly when there is a token before and it is not `@`, `::`, `(`, `[`, `,` or an operator; a
name followed, after blanks, by `::` is an axis name, a name followed by `(` is a node type or a
function name, and any other name a name test.

Main statement: tokenizing succeeds only with the tokens of such a reading of the whole input
(`Scanned`), blanks skipped before each token and at the end, each token recorded at the byte
where its lexeme starts. So the offsets strictly increase, each is the byte length of a prefix
of the input, and the list ends with its one `eof`, at the end of the input. -/
namespace XmlPointer.Path

section Bytes

theorem foldl_utf8Size (l : List Char) (k : Nat) :
    l.foldl (fun n c => n + c.utf8Size) k = k + byteLength l := by
  induction l generalizing k with
  | nil => rfl
  | cons c l ih =>
    simp only [byteLength, List.foldl_cons, ih (k + c.utf8Size), ih (0 + c.utf8Size)]
    omega

@[simp] theorem byteLength_nil : byteLength [] = 0 := rfl

@[simp] theorem byteLength_cons (c : Char) (l : List Char) :
    byteLength (c :: l) = c.utf8Size + byteLength l := by
  rw [show byteLength (c :: l) = l.foldl (fun n c => n + c.utf8Size) (0 + c.utf8Size) from rfl,
    foldl_utf8Size]
  omega

@[simp] theorem byteLength_append (l m : List Char) :
    byteLength (l ++ m) = byteLength l + byteLength m := by
  induction l with
  | nil => simp
  | cons c l ih => simp [ih]; omega

theorem byteLength_pos {l : List Char} (h : l ≠ []) : 0 < byteLength l := by
  obtain ⟨c, l, rfl⟩ := List.exists_cons_of_ne_nil h
  have := Char.utf8Size_pos c
  simp only [byteLength_cons]
  omega

theorem utf8Size_of_isDigit {c : Char} (h : c.isDigit = true) : c.utf8Size = 1 := by
  simp only [Char.isDigit, Bool.and_eq_true, decide_eq_true_eq, UInt32.le_iff_toNat_le] at h
  have h9 : ('9' : Char).val.toNat = 57 := rfl
  exact Char.utf8Size_eq_one_iff.mpr
    (UInt32.le_iff_toNat_le.mpr (by change c.val.toNat ≤ 127; omega))

theorem byteLength_of_ascii {l : List Char} (h : ∀ c ∈ l, c.isDigit = true ∨ c = '.') :
    byteLength l = l.length := by
  induction l with
  | nil => rfl
  | cons c l ih =>
    have hc : c.utf8Size = 1 := by
      rcases h c List.mem_cons_self with hd | rfl
      · exact utf8Size_of_isDigit hd
      · rfl
    simp only [byteLength_cons, hc, List.length_cons,
      ih fun x hx => h x (List.mem_cons_of_mem c hx)]
    omega

end Bytes

section Rules

/-- The operators of XPath 1.0: the operator names, `*` as multiplication, `/`, `//`, `|`, `+`,
`-`, `=`, `!=`, `<`, `<=`, `>` and `>=`. -/
def PathToken.IsOperator : PathToken → Prop
  | .andOp | .orOp | .modOp | .divOp | .multiply | .slash | .doubleSlash | .pipe | .plus
  | .minus | .eq | .notEq | .lt | .ltEq | .gt | .gtEq => True
  | _ => False

/-- The operator names `and`, `or`, `mod` and `div` as tokens. -/
def PathToken.IsOperatorName : PathToken → Prop
  | .andOp | .orOp | .modOp | .divOp => True
  | _ => False

/-- After a token other than `@`, `::`, `(`, `[`, `,` and the operators, `*` multiplies and an
operator name is an operator. -/
def PathToken.AllowsOperator (t : PathToken) : Prop :=
  ¬(t.IsOperator ∨ t = .atSign ∨ t = .doubleColon ∨ t = .leftParen ∨ t = .leftBracket ∨
    t = .comma)

theorem PathToken.allowsOperator_iff (t : PathToken) :
    t.AllowsOperator ↔ t.expectsOperand = false := by
  cases t <;> simp [AllowsOperator, IsOperator, expectsOperand]

def operatorNames : List (List Char) :=
  ["and".toList, "or".toList, "mod".toList, "div".toList]

/-- The characters a token is read from. A number is digits with at most one point and at
least one digit, and its value is that of the decimal; a literal is quoted with a quote it does
not contain; a name token is its name, prefixed or not. -/
def PathToken.Spelled : PathToken → List Char → Prop
  | .slash, l => l = ['/']
  | .doubleSlash, l => l = ['/', '/']
  | .dot, l => l = ['.']
  | .doubleDot, l => l = ['.', '.']
  | .atSign, l => l = ['@']
  | .pipe, l => l = ['|']
  | .plus, l => l = ['+']
  | .minus, l => l = ['-']
  | .multiply, l => l = ['*']
  | .eq, l => l = ['=']
  | .notEq, l => l = ['!', '=']
  | .lt, l => l = ['<']
  | .ltEq, l => l = ['<', '=']
  | .gt, l => l = ['>']
  | .gtEq, l => l = ['>', '=']
  | .andOp, l => l = "and".toList
  | .orOp, l => l = "or".toList
  | .modOp, l => l = "mod".toList
  | .divOp, l => l = "div".toList
  | .leftParen, l => l = ['(']
  | .rightParen, l => l = [')']
  | .leftBracket, l => l = ['[']
  | .rightBracket, l => l = [']']
  | .comma, l => l = [',']
  | .doubleColon, l => l = [':', ':']
  | .number v, l =>
    (∃ a b, l = a ++ b ∧ (∀ c ∈ a, c.isDigit) ∧
      (b = [] ∨ ∃ d, b = '.' :: d ∧ ∀ c ∈ d, c.isDigit)) ∧ (∃ c ∈ l, c.isDigit) ∧
    v = Binary64.ofDecimal false (decimalParts l).1 (decimalParts l).2
  | .literal v, l =>
    ∃ q, (q = '"' ∨ q = Char.ofNat 0x27) ∧ q ∉ v.toList ∧ l = q :: v.toList ++ [q]
  | .variable n, l => n ≠ "" ∧ l = '$' :: n.toList
  | .nameTest none none, l => l = ['*']
  | .nameTest (some p) none, l => l = p.toList ++ [':', '*']
  | .nameTest none (some n), l => l = n.toList
  | .nameTest (some p) (some n), l => l = p.toList ++ ':' :: n.toList
  | .functionName q, l => l = q.toList
  | .nodeType q, l => l = q.toList
  | .axisName q, l => l = q.toList
  | .eof, l => l = []

def NameAt (w r cs : List Char) : Prop :=
  cs = w ++ r ∧ Text.isNCNameList w = true ∧ ∀ c ∈ r.head?, Text.isNameChar c = false

def FollowedBy (pat r : List Char) : Prop :=
  ∃ x, r.dropWhile Text.isXmlBlank = pat ++ x

def Unprefixed (r : List Char) : Prop :=
  ∀ c r', r = ':' :: c :: r' → Text.isNameStart c = false ∧ c ≠ '*'

/-- How the token read at the front of `cs` is classified, operators being allowed or not. -/
structure Classified (allowed : Prop) (t : PathToken) (cs : List Char) : Prop where
  star : ∀ r, cs = '*' :: r →
    (allowed → t = .multiply) ∧ (¬allowed → t = .nameTest none none)
  operator : ∀ w r, NameAt w r cs → (t.IsOperatorName ↔ allowed ∧ w ∈ operatorNames)
  axis : ∀ w r, NameAt w r cs → ¬(allowed ∧ w ∈ operatorNames) →
    FollowedBy [':', ':'] r → t = .axisName (String.ofList w)
  call : ∀ w r, NameAt w r cs → ¬(allowed ∧ w ∈ operatorNames) → FollowedBy ['('] r →
    t = if String.ofList w ∈ nodeTypeNames then .nodeType (String.ofList w)
      else .functionName (String.ofList w)
  prefixedCall : ∀ p l r, NameAt p (':' :: l ++ r) cs → NameAt l r (l ++ r) →
    ¬(allowed ∧ p ∈ operatorNames) → FollowedBy ['('] r →
    t = .functionName (String.ofList (p ++ ':' :: l))
  nameTest : ∀ w r, NameAt w r cs → ¬(allowed ∧ w ∈ operatorNames) → Unprefixed r →
    ¬FollowedBy ['('] r → ¬FollowedBy [':', ':'] r →
    t = .nameTest none (some (String.ofList w))

/-- The token `t` is read from the front of `cs`, taking `width` bytes and leaving `rest`: a
non-empty lexeme that spells it, classified by what surrounds it. -/
def Lexes (allowed : Prop) (cs : List Char) (t : PathToken) (width : Nat) (rest : List Char) :
    Prop :=
  ∃ lex, cs = lex ++ rest ∧ lex ≠ [] ∧ width = byteLength lex ∧ t.Spelled lex ∧
    Classified allowed t cs

end Rules

section Names

theorem mem_head?_dropWhile {p : Char → Bool} {l : List Char} {c : Char}
    (h : c ∈ (l.dropWhile p).head?) : p c = false := by
  have hnot := List.head?_dropWhile_not p l
  rw [Option.mem_def] at h
  rw [h] at hnot
  exact hnot

theorem takeNCName_of_isNameStart {c : Char} (cs : List Char) (hc : Text.isNameStart c = true) :
    takeNCName (c :: cs) = (c :: cs.takeWhile Text.isNameChar, cs.dropWhile Text.isNameChar) := by
  simp [takeNCName, hc, List.span_eq_takeWhile_dropWhile]

theorem nameAt_takeNCName {c : Char} (cs : List Char) (hc : Text.isNameStart c = true) :
    NameAt (takeNCName (c :: cs)).1 (takeNCName (c :: cs)).2 (c :: cs) := by
  rw [takeNCName_of_isNameStart cs hc]
  refine ⟨by simp, ?_, fun x hx => mem_head?_dropWhile hx⟩
  simp [Text.isNCNameList, hc, List.all_takeWhile]

theorem NameAt.takeNCName_eq {w r cs : List Char} (h : NameAt w r cs) : takeNCName cs = (w, r) := by
  obtain ⟨rfl, hname, hr⟩ := h
  cases w with
  | nil => simp [Text.isNCNameList] at hname
  | cons c w =>
    simp only [Text.isNCNameList, Bool.and_eq_true, List.all_eq_true] at hname
    have hspan : (w ++ r).span Text.isNameChar = (w, r) :=
      span_append_of_all hname.2 fun y ys hys => hr y (by simp [hys])
    rw [List.span_eq_takeWhile_dropWhile, Prod.mk.injEq] at hspan
    rw [List.cons_append, takeNCName_of_isNameStart _ hname.1, hspan.1, hspan.2]

theorem NameAt.unique {w r w' r' cs : List Char} (h : NameAt w r cs) (h' : NameAt w' r' cs) :
    w = w' ∧ r = r' := by
  have he := h.takeNCName_eq.symm.trans h'.takeNCName_eq
  simp only [Prod.mk.injEq] at he
  exact he

theorem not_nameAt {c : Char} {cs w r : List Char} (hc : Text.isNameStart c = false) :
    ¬NameAt w r (c :: cs) := by
  rintro ⟨hcs, hname, -⟩
  cases w with
  | nil => simp [Text.isNCNameList] at hname
  | cons d w =>
    simp only [List.cons_append, List.cons.injEq] at hcs
    simp only [Text.isNCNameList, ← hcs.1, hc, Bool.false_and] at hname
    cases hname

theorem Classified.plain {allowed : Prop} {t : PathToken} {c : Char} {cs : List Char}
    (hstar : c ≠ '*') (hname : Text.isNameStart c = false) : Classified allowed t (c :: cs) where
  star _ h := absurd (List.cons.inj h).1 hstar
  operator _ _ h := absurd h (not_nameAt hname)
  axis _ _ h := absurd h (not_nameAt hname)
  call _ _ h := absurd h (not_nameAt hname)
  prefixedCall _ _ _ h := absurd h (not_nameAt hname)
  nameTest _ _ h := absurd h (not_nameAt hname)

end Names

section Words

theorem operatorWord_of_mem {w : List Char} (h : w ∈ operatorNames) :
    ∃ t, operatorWord (String.ofList w) = some t ∧ t.IsOperatorName ∧ t.Spelled w := by
  simp only [operatorNames, List.mem_cons, List.not_mem_nil, or_false] at h
  rcases h with rfl | rfl | rfl | rfl <;> exact ⟨_, rfl, trivial, rfl⟩

theorem operatorWord_of_not_mem {w : List Char} (h : w ∉ operatorNames) :
    operatorWord (String.ofList w) = none := by
  unfold operatorWord
  split
  case h_5 => rfl
  -- any of the four words would put `w` among the operator names
  all_goals
    rename_i hw
    have hchars := congrArg String.toList hw
    rw [String.toList_ofList] at hchars
    exact absurd (hchars ▸ by simp [operatorNames]) h

end Words

section Classify

theorem classify_axis {q l : String} {rest : List Char} (h : FollowedBy [':', ':'] rest) :
    classify q none l rest = .axisName q := by
  obtain ⟨x, hx⟩ := h
  simp [classify, hx]

theorem classify_call {q l : String} {pre : Option String} {rest : List Char}
    (h : FollowedBy ['('] rest) :
    classify q pre l rest =
      if pre.isNone && nodeTypeNames.contains l then .nodeType q else .functionName q := by
  obtain ⟨x, hx⟩ := h
  cases pre <;> simp [classify, hx]

theorem classify_nameTest {q l : String} {pre : Option String} {rest : List Char}
    (hcall : ¬FollowedBy ['('] rest) (haxis : pre = none → ¬FollowedBy [':', ':'] rest) :
    classify q pre l rest = .nameTest pre (some l) := by
  unfold classify
  dsimp only
  split
  · rename_i tail hx
    exact absurd ⟨tail, hx⟩ (haxis rfl)
  · rename_i tail hx
    exact absurd ⟨tail, hx⟩ hcall
  · rfl

theorem classify_spelled (n : String) (rest : List Char) :
    (classify n none n rest).Spelled n.toList := by
  unfold classify
  dsimp only
  split
  · rfl
  · split <;> rfl
  · rfl

theorem classify_prefixed_spelled (p l : String) (rest : List Char) :
    (classify (p ++ ":" ++ l) (some p) l rest).Spelled (p.toList ++ ':' :: l.toList) := by
  unfold classify
  dsimp only
  split
  · rename_i hpre _
    cases hpre
  · simp [PathToken.Spelled]
  · rfl

end Classify

section Names

theorem isNameStart_star : Text.isNameStart '*' = false := by decide

theorem isNameStart_colon : Text.isNameStart ':' = false := by decide

theorem followedBy_colon {pat x : List Char} :
    FollowedBy pat (':' :: x) ↔ ∃ y, ':' :: x = pat ++ y := by
  simp [FollowedBy, Text.isXmlBlank]

theorem NameAt.ne_nil {w r cs : List Char} (h : NameAt w r cs) : w ≠ [] := by
  rintro rfl
  simp [NameAt, Text.isNCNameList] at h

theorem NameAt.head {w r : List Char} {d : Char} {x : List Char} (h : NameAt w r (d :: x)) :
    Text.isNameStart d = true := by
  obtain ⟨hcs, hname, -⟩ := h
  cases w with
  | nil => simp [Text.isNCNameList] at hname
  | cons e w =>
    simp only [List.cons_append, List.cons.injEq] at hcs
    simp only [Text.isNCNameList, Bool.and_eq_true] at hname
    exact hcs.1 ▸ hname.1

theorem Classified.operatorName {allowed : Prop} {t : PathToken} {first rest cs : List Char}
    (hname : NameAt first rest cs) (hallowed : allowed) (hmem : first ∈ operatorNames)
    (ht : t.IsOperatorName) (hstar : ∀ r, cs ≠ '*' :: r) : Classified allowed t cs where
  star r h := absurd h (hstar r)
  operator w r h := by
    rw [(h.unique hname).1]
    exact ⟨fun _ => ⟨hallowed, hmem⟩, fun _ => ht⟩
  axis w r h hn := absurd ⟨hallowed, (h.unique hname).1 ▸ hmem⟩ hn
  call w r h hn := absurd ⟨hallowed, (h.unique hname).1 ▸ hmem⟩ hn
  prefixedCall p l r h _ hn := absurd ⟨hallowed, (h.unique hname).1 ▸ hmem⟩ hn
  nameTest w r h hn := absurd ⟨hallowed, (h.unique hname).1 ▸ hmem⟩ hn

theorem Classified.name {allowed : Prop} {t : PathToken} {first rest cs : List Char}
    (hname : NameAt first rest cs) (hword : ¬(allowed ∧ first ∈ operatorNames))
    (ht : ¬t.IsOperatorName) (hstar : ∀ r, cs ≠ '*' :: r)
    (haxis : FollowedBy [':', ':'] rest → t = .axisName (String.ofList first))
    (hcall : FollowedBy ['('] rest →
      t = if String.ofList first ∈ nodeTypeNames then .nodeType (String.ofList first)
        else .functionName (String.ofList first))
    (hprefixed : ∀ l r, rest = ':' :: l ++ r → NameAt l r (l ++ r) → FollowedBy ['('] r →
      t = .functionName (String.ofList (first ++ ':' :: l)))
    (htest : Unprefixed rest → ¬FollowedBy ['('] rest → ¬FollowedBy [':', ':'] rest →
      t = .nameTest none (some (String.ofList first))) :
    Classified allowed t cs where
  star r h := absurd h (hstar r)
  operator w r h := by
    rw [(h.unique hname).1]
    exact ⟨fun h' => absurd h' ht, fun h' => absurd h' hword⟩
  axis w r h _ hf := by
    obtain ⟨rfl, rfl⟩ := h.unique hname
    exact haxis hf
  call w r h _ hf := by
    obtain ⟨rfl, rfl⟩ := h.unique hname
    exact hcall hf
  prefixedCall p l r h hl _ hf := by
    obtain ⟨rfl, hrest⟩ := h.unique hname
    exact hprefixed l r hrest.symm hl hf
  nameTest w r h _ hu hc ha := by
    obtain ⟨rfl, rfl⟩ := h.unique hname
    exact htest hu hc ha

end Names

section Scan

theorem classify_not_operatorName (q l : String) (pre : Option String) (rest : List Char) :
    ¬(classify q pre l rest).IsOperatorName := by
  unfold classify
  dsimp only
  split
  · exact id
  · split <;> exact id
  · exact id

theorem not_followedBy_colon {pat x : List Char} {d : Char} (hpat : pat.head? = some d)
    (hd : d ≠ ':') : ¬FollowedBy pat (':' :: x) := by
  rw [followedBy_colon]
  rintro ⟨y, hy⟩
  cases pat with
  | nil => cases hpat
  | cons e pat =>
    simp only [List.head?_cons, Option.some.injEq] at hpat
    simp only [List.cons_append, List.cons.injEq] at hy
    exact hd (hpat ▸ hy.1.symm)

theorem lexes_unprefixed {allowed : Prop} {first rest cs : List Char}
    (hname : NameAt first rest cs) (hword : ¬(allowed ∧ first ∈ operatorNames))
    (hstar : ∀ r, cs ≠ '*' :: r) (hun : Unprefixed rest) :
    Lexes allowed cs (classify (String.ofList first) none (String.ofList first) rest)
      (byteLength first) rest := by
  refine ⟨first, hname.1, hname.ne_nil, rfl, ?_, ?_⟩
  · simpa using classify_spelled (String.ofList first) rest
  refine Classified.name hname hword (classify_not_operatorName _ _ _ _) hstar
    classify_axis (fun hf => ?_) (fun l r hr hl _ => ?_) (fun _ hc ha => classify_nameTest hc ?_)
  · simp [classify_call hf]
  · -- a name after the colon would make the name qualified
    obtain ⟨d, l', rfl⟩ := List.exists_cons_of_ne_nil hl.ne_nil
    exact absurd (hl.head (x := l' ++ r)) (by simp [(hun d (l' ++ r) (by simp [hr])).1])
  · exact fun _ => ha


theorem not_followedBy_colon_colon {d : Char} {x : List Char} (hd : d ≠ ':') :
    ¬FollowedBy [':', ':'] (':' :: d :: x) := by
  rw [followedBy_colon]
  rintro ⟨y, hy⟩
  simp only [List.cons_append, List.nil_append, List.cons.injEq, true_and] at hy
  exact hd hy.1

theorem lexes_wildcard {allowed : Prop} {first after cs : List Char}
    (hname : NameAt first (':' :: '*' :: after) cs)
    (hword : ¬(allowed ∧ first ∈ operatorNames)) (hstar : ∀ r, cs ≠ '*' :: r) :
    Lexes allowed cs (.nameTest (some (String.ofList first)) none) (byteLength first + 2)
      after := by
  refine ⟨first ++ [':', '*'], by simp [hname.1], by simp, by rw [byteLength_append]; rfl,
    by simp [PathToken.Spelled], ?_⟩
  refine Classified.name hname hword id hstar
    (fun hf => absurd hf (not_followedBy_colon_colon (by decide)))
    (fun hf => absurd hf (not_followedBy_colon rfl (by decide))) (fun l r hr hl _ => ?_)
    (fun hu => absurd (hu '*' after rfl).2 (by decide))
  -- no name starts with `*`
  simp only [List.cons_append, List.cons.injEq, true_and] at hr
  rw [← hr] at hl
  exact absurd hl.head (by simp [isNameStart_star])

theorem ofList_qualified (p l : List Char) :
    String.ofList p ++ ":" ++ String.ofList l = String.ofList (p ++ ':' :: l) := by
  rw [← String.toList_inj]
  simp

theorem lexes_prefixed {allowed : Prop} {first more cs : List Char} {d : Char}
    (hname : NameAt first (':' :: d :: more) cs) (hword : ¬(allowed ∧ first ∈ operatorNames))
    (hstar : ∀ r, cs ≠ '*' :: r) (hd : Text.isNameStart d = true) :
    Lexes allowed cs
      (classify (String.ofList first ++ ":" ++ String.ofList (takeNCName (d :: more)).1)
        (some (String.ofList first)) (String.ofList (takeNCName (d :: more)).1)
        (takeNCName (d :: more)).2)
      (byteLength first + 1 + byteLength (takeNCName (d :: more)).1)
      (takeNCName (d :: more)).2 := by
  have hlocal := nameAt_takeNCName more hd
  generalize takeNCName (d :: more) = sa at hlocal
  obtain ⟨second, after⟩ := sa
  dsimp only at hlocal ⊢
  have hcolon : (':' : Char).utf8Size = 1 := rfl
  refine ⟨first ++ ':' :: second, by simp [hname.1, hlocal.1], by simp,
    by simp only [byteLength_append, byteLength_cons, hcolon]; omega, ?_, ?_⟩
  · simpa using classify_prefixed_spelled (String.ofList first) (String.ofList second) after
  refine Classified.name hname hword (classify_not_operatorName _ _ _ _) hstar
    (fun hf => absurd hf (not_followedBy_colon_colon fun h => by simp [h, isNameStart_colon] at hd))
    (fun hf => absurd hf (not_followedBy_colon rfl (by decide)))
    (fun l r hr hl hf => ?_) (fun hu => absurd (hu d more rfl).1 (by simp [hd]))
  · simp only [List.cons_append, List.cons.injEq, true_and] at hr
    rw [← hr] at hl
    obtain ⟨rfl, rfl⟩ := hl.unique hlocal
    rw [classify_call hf, ofList_qualified]
    rfl

/-- A name at the front is read whole: as an operator where operators are allowed and the name
is an operator name, else as a name classified by what follows it. -/
theorem scanName_lexes {op : Bool} {c : Char} (cs : List Char) (hc : Text.isNameStart c = true) :
    Lexes (op = true) (c :: cs) (scanName op (c :: cs)).1 (scanName op (c :: cs)).2.1
      (scanName op (c :: cs)).2.2 := by
  have hname := nameAt_takeNCName cs hc
  generalize hft : takeNCName (c :: cs) = fr at hname
  obtain ⟨first, rest⟩ := fr
  have hstar : ∀ r, c :: cs ≠ '*' :: r := by
    intro r h
    rw [(List.cons.inj h).1, isNameStart_star] at hc
    cases hc
  unfold scanName
  rw [hft]
  dsimp only
  by_cases hop : op = true ∧ first ∈ operatorNames
  · obtain ⟨o, ho, hoName, hoSpelled⟩ := operatorWord_of_mem hop.2
    rw [if_pos hop.1, ho]
    exact ⟨first, hname.1, hname.ne_nil, rfl, hoSpelled,
      Classified.operatorName hname hop.1 hop.2 hoName hstar⟩
  · have hnone : (if op = true then operatorWord (String.ofList first) else none) = none := by
      by_cases hb : op = true
      · rw [if_pos hb]
        exact operatorWord_of_not_mem fun hm => hop ⟨hb, hm⟩
      · rw [if_neg hb]
    rw [hnone]
    dsimp only
    dsimp only at hname
    split
    · exact lexes_wildcard hname hop hstar
    · rename_i d more hd
      split
      · exact lexes_prefixed hname hop hstar ‹_›
      · exact lexes_unprefixed hname hop hstar fun e x he => by
          simp only [List.cons.injEq, true_and] at he
          obtain ⟨rfl, rfl⟩ := he
          exact ⟨by simpa using ‹¬Text.isNameStart d = true›, hd⟩
    · exact lexes_unprefixed hname hop hstar fun e x he => absurd he (by simp_all)

theorem lexes_plain {allowed : Prop} {t : PathToken} {c : Char} {l rest : List Char} {width : Nat}
    (hstar : c ≠ '*') (hname : Text.isNameStart c = false) (hw : width = byteLength (c :: l))
    (hs : t.Spelled (c :: l)) : Lexes allowed (c :: l ++ rest) t width rest :=
  ⟨c :: l, rfl, List.cons_ne_nil _ _, hw, hs, Classified.plain hstar hname⟩

theorem lexes_star (op : Bool) (rest : List Char) :
    Lexes (op = true) ('*' :: rest) (if op = true then .multiply else .nameTest none none) 1
      rest := by
  have hno : ∀ {w r}, ¬NameAt w r ('*' :: rest) := not_nameAt isNameStart_star
  exact ⟨['*'], rfl, List.cons_ne_nil _ _, rfl, by split <;> rfl,
    ⟨fun _ _ => ⟨fun h => if_pos h, fun h => if_neg h⟩, fun _ _ h => absurd h hno,
      fun _ _ h => absurd h hno, fun _ _ h => absurd h hno, fun _ _ _ h => absurd h hno,
      fun _ _ h => absurd h hno⟩⟩

theorem not_isNameStart_of_isDigit {c : Char} (h : c.isDigit = true) :
    Text.isNameStart c = false := by
  simp only [Char.isDigit, Bool.and_eq_true, decide_eq_true_eq, UInt32.le_iff_toNat_le] at h
  have h0 : ('0' : Char).val.toNat = 48 := rfl
  have h9 : ('9' : Char).val.toNat = 57 := rfl
  simp only [Text.isNameStart, Text.inRange, Char.toNat, Bool.or_eq_false_iff,
    Bool.and_eq_false_iff, decide_eq_false_iff_not, not_le]
  omega

theorem scanNumber_eq (cs : List Char) :
    ∃ b, cs = cs.takeWhile Char.isDigit ++ b ++ (scanNumber cs).2.2 ∧
      ((b = [] ∧ ∀ x, cs.dropWhile Char.isDigit ≠ '.' :: x) ∨
        ∃ more, cs.dropWhile Char.isDigit = '.' :: more ∧
          b = '.' :: more.takeWhile Char.isDigit) ∧
      (scanNumber cs).2.1 = (cs.takeWhile Char.isDigit ++ b).length ∧
      (scanNumber cs).1 = .number (Binary64.ofDecimal false
        (decimalParts (cs.takeWhile Char.isDigit ++ b)).1
        (decimalParts (cs.takeWhile Char.isDigit ++ b)).2) := by
  unfold scanNumber
  simp only [List.span_eq_takeWhile_dropWhile]
  split
  · rename_i more hmore
    refine ⟨'.' :: more.takeWhile Char.isDigit, ?_, .inr ⟨more, hmore, rfl⟩, rfl, rfl⟩
    conv_lhs => rw [← List.takeWhile_append_dropWhile (p := Char.isDigit) (l := cs), hmore]
    simp
  · rename_i hmore
    exact ⟨[], by simp, .inl ⟨rfl, hmore⟩, rfl, rfl⟩

/-- A number starting with a digit, or with a point before a digit. -/
theorem lexes_number {allowed : Prop} {c : Char} {cs : List Char}
    (hc : c.isDigit = true ∨ ∃ d r, c = '.' ∧ cs = d :: r ∧ d.isDigit = true) :
    Lexes allowed (c :: cs) (scanNumber (c :: cs)).1 (scanNumber (c :: cs)).2.1
      (scanNumber (c :: cs)).2.2 := by
  obtain ⟨b, hsplit, hb, hw, ht⟩ := scanNumber_eq (c :: cs)
  have hdigits : ∀ x ∈ (c :: cs).takeWhile Char.isDigit, x.isDigit = true :=
    fun x hx => List.mem_takeWhile_imp hx
  have hb' : b = [] ∨ ∃ d, b = '.' :: d ∧ ∀ x ∈ d, x.isDigit = true := by
    rcases hb with ⟨rfl, -⟩ | ⟨more, -, rfl⟩
    · exact .inl rfl
    · exact .inr ⟨_, rfl, fun x hx => List.mem_takeWhile_imp hx⟩
  -- the lexeme has a digit: the first character, or the one after the point
  have hdigit : ∃ x ∈ (c :: cs).takeWhile Char.isDigit ++ b, x.isDigit = true := by
    rcases hc with hc | ⟨d, r, rfl, rfl, hd⟩
    · exact ⟨c, by simp [hc], hc⟩
    · have hdrop : ('.' :: d :: r).dropWhile Char.isDigit = '.' :: d :: r := by simp
      rcases hb with ⟨-, hno⟩ | ⟨more, hmore, rfl⟩
      · exact absurd hdrop (hno _)
      · rw [hdrop, List.cons.injEq] at hmore
        rw [← hmore.2]
        exact ⟨d, by simp [hd], hd⟩
  have hascii : ∀ x ∈ (c :: cs).takeWhile Char.isDigit ++ b, x.isDigit = true ∨ x = '.' := by
    intro x hx
    rcases List.mem_append.mp hx with hx | hx
    · exact .inl (hdigits x hx)
    · rcases hb' with rfl | ⟨d, rfl, hd⟩
      · cases hx
      · rcases List.mem_cons.mp hx with rfl | hx
        · exact .inr rfl
        · exact .inl (hd x hx)
  have hfirst : c.isDigit = true ∨ c = '.' := by
    rcases hc with hc | ⟨d, r, rfl, -, -⟩
    · exact .inl hc
    · exact .inr rfl
  refine ⟨(c :: cs).takeWhile Char.isDigit ++ b, hsplit, ?_, ?_, ?_, ?_⟩
  · obtain ⟨x, hx, -⟩ := hdigit
    exact List.ne_nil_of_mem hx
  · rw [hw, byteLength_of_ascii hascii]
  · rw [ht]
    exact ⟨⟨_, _, rfl, hdigits, hb'⟩, hdigit, rfl⟩
  · refine Classified.plain ?_ ?_
    · rcases hfirst with h | rfl
      · rintro rfl
        simp at h
      · decide
    · rcases hfirst with h | rfl
      · exact not_isNameStart_of_isDigit h
      · decide

theorem lexes_literal {allowed : Prop} {q : Char} {body rest : List Char} {start width : Nat}
    {t : PathToken} (hq : q = '"' ∨ q = Char.ofNat 0x27)
    (h : scanLiteral q body start = .ok (t, width, rest)) :
    Lexes allowed (q :: body) t width rest := by
  unfold scanLiteral at h
  simp only [List.span_eq_takeWhile_dropWhile] at h
  split at h
  · rename_i x after hdrop
    cases h
    -- the literal stops at the first quote
    have hx : x = q := by
      have hnot := mem_head?_dropWhile (p := fun y => decide (y ≠ q)) (l := body) (c := x)
        (by rw [hdrop]; rfl)
      simpa using hnot
    subst hx
    have hbody : body = body.takeWhile (fun y => decide (y ≠ x)) ++ x :: rest := by
      rw [← hdrop, List.takeWhile_append_dropWhile]
    have hnotin : x ∉ body.takeWhile (fun y => decide (y ≠ x)) := fun hm => by
      simpa using List.mem_takeWhile_imp hm
    have hsize : x.utf8Size = 1 := by rcases hq with rfl | rfl <;> rfl
    refine ⟨x :: body.takeWhile (fun y => decide (y ≠ x)) ++ [x], ?_, by simp, ?_, ?_,
      Classified.plain (by rcases hq with rfl | rfl <;> decide)
        (by rcases hq with rfl | rfl <;> decide)⟩
    · conv_lhs => rw [hbody]
      simp
    · simp only [byteLength_append, byteLength_cons, byteLength_nil, hsize]
      omega
    · exact ⟨x, hq, by simpa using hnotin, by simp⟩
  · cases h

theorem takeNCName_append (cs : List Char) : (takeNCName cs).1 ++ (takeNCName cs).2 = cs := by
  unfold takeNCName
  split
  · split
    · simp [List.span_eq_takeWhile_dropWhile]
    · rfl
  · rfl

theorem takeQName_append (cs : List Char) : (takeQName cs).1 ++ (takeQName cs).2 = cs := by
  unfold takeQName
  have h := takeNCName_append cs
  generalize takeNCName cs = fr at h
  obtain ⟨first, rest⟩ := fr
  dsimp only at h ⊢
  split
  · rename_i c more
    split
    · have h' := takeNCName_append (c :: more)
      dsimp only
      rw [List.append_assoc, List.cons_append, h', h]
    · exact h
  · exact h

theorem lexes_variable {allowed : Prop} {rest name after : List Char}
    (h : takeQName rest = (name, after)) (hne : name ≠ []) :
    Lexes allowed ('$' :: rest) (.variable (String.ofList name)) (1 + byteLength name) after := by
  have hsplit := takeQName_append rest
  rw [h] at hsplit
  refine ⟨'$' :: name, by simp [hsplit], by simp, by simp; rfl, ?_,
    Classified.plain (by decide) (by decide)⟩
  refine ⟨fun hn => hne ?_, by simp⟩
  rw [← String.toList_ofList (l := name), hn]
  rfl

theorem singleToken_spelled {c : Char} {t : PathToken} (h : singleToken c = some t) :
    t.Spelled [c] ∧ c ≠ '*' ∧ Text.isNameStart c = false ∧ byteLength [c] = 1 := by
  unfold singleToken at h
  split at h <;> cases h <;> exact ⟨rfl, by decide, by decide, rfl⟩

/-- Every token read from a non-empty input is read from a lexeme at its front that spells it,
and is classified by the rules of XPath 1.0. -/
theorem scanToken_lexes {op : Bool} {start : Nat} {c : Char} {cs : List Char} {t : PathToken}
    {width : Nat} {rest : List Char} (h : scanToken op start (c :: cs) = .ok (t, width, rest)) :
    Lexes (op = true) (c :: cs) t width rest := by
  unfold scanToken at h
  split at h
  case h_1 heq => cases heq
  -- two-character punctuation
  case h_2 | h_4 | h_7 | h_8 | h_10 | h_12 =>
    rename_i rest' heq
    rw [heq]
    cases h
    exact lexes_plain (l := [_]) (by decide) (by decide) rfl rfl
  -- one character that is not the start of a longer one
  case h_3 | h_9 | h_11 =>
    rename_i rest' _ heq
    rw [heq]
    cases h
    exact lexes_plain (l := []) (by decide) (by decide) rfl rfl
  case h_5 d rest' _ heq =>
    rw [heq]
    split at h
    · cases h
      exact lexes_number (.inr ⟨d, rest', rfl, rfl, ‹_›⟩)
    · cases h
      exact lexes_plain (l := []) (by decide) (by decide) rfl rfl
  case h_6 heq =>
    rw [heq]
    cases h
    exact lexes_plain (l := []) (by decide) (by decide) rfl rfl
  case h_13 rest' heq =>
    rw [heq]
    cases h
    exact lexes_star op _
  case h_14 rest' heq =>
    rw [heq]
    exact lexes_literal (.inl rfl) h
  case h_15 rest' heq =>
    rw [heq]
    split at h
    rename_i name after hq
    split at h
    · cases h
    · rename_i hempty
      cases h
      exact lexes_variable hq fun hn => hempty (by simp [hn])
  case h_16 c' rest' _ _ _ _ _ _ _ _ _ _ _ hstar _ _ heq =>
    rw [heq]
    split at h
    · exact lexes_literal (.inr ‹_›) h
    split at h
    · cases h
      exact lexes_number (.inl ‹_›)
    split at h
    · have hx : scanName op (c' :: rest') = (t, width, rest) := Except.ok.inj h
      have hl : Lexes (op = true) (c' :: rest') (scanName op (c' :: rest')).1
          (scanName op (c' :: rest')).2.1 (scanName op (c' :: rest')).2.2 :=
        scanName_lexes rest' ‹_›
      rw [hx] at hl
      exact hl
    split at h
    · rename_i t' hsingle
      cases h
      obtain ⟨hs, hstar', hname, hw⟩ := singleToken_spelled hsingle
      exact lexes_plain (l := []) hstar' hname hw.symm hs
    · cases h

end Scan

section Tokens

/-- The tokens `ts` read from `cs`, which starts at byte `pos`, operators being allowed at the
first token exactly when `allowed`: blanks are skipped before each token, a token is recorded at
the byte of the first character after them, the next token allows operators exactly when this
one does, and the list ends with `eof` after the last blanks. -/
inductive Scanned : Prop → Nat → List Char → List (PathToken × Nat) → Prop
  | eof {allowed : Prop} {pos : Nat} {ws : List Char}
      (hws : ∀ c ∈ ws, Text.isXmlBlank c = true) :
      Scanned allowed pos ws [(.eof, pos + byteLength ws)]
  | token {allowed : Prop} {pos : Nat} {ws cs rest : List Char} {t : PathToken} {width : Nat}
      {ts : List (PathToken × Nat)} (hws : ∀ c ∈ ws, Text.isXmlBlank c = true)
      (hfirst : ∀ c ∈ cs.head?, Text.isXmlBlank c = false)
      (hlex : Lexes allowed cs t width rest)
      (hrest : Scanned t.AllowsOperator (pos + byteLength ws + width) rest ts) :
      Scanned allowed pos (ws ++ cs) ((t, pos + byteLength ws) :: ts)

theorem Lexes.length_lt {allowed : Prop} {cs rest : List Char} {t : PathToken} {width : Nat}
    (h : Lexes allowed cs t width rest) : rest.length < cs.length := by
  obtain ⟨lex, rfl, hne, -⟩ := h
  have := List.length_pos_of_ne_nil hne
  simp only [List.length_append]
  omega

theorem Lexes.ne_eof {allowed : Prop} {cs rest : List Char} {t : PathToken} {width : Nat}
    (h : Lexes allowed cs t width rest) : t ≠ .eof := by
  rintro rfl
  obtain ⟨lex, -, hne, -, hs, -⟩ := h
  exact hne hs

/-- The lexer reads a whole input, given enough fuel: one more than there are characters. -/
theorem tokensFrom_scanned : ∀ (fuel : Nat) {op : Bool} {pos : Nat} {cs : List Char}
    {ts : List (PathToken × Nat)}, cs.length < fuel → tokensFrom fuel op pos cs = .ok ts →
      Scanned (op = true) pos cs ts
  | 0, _, _, _, _, hlen, _ => absurd hlen (Nat.not_lt_zero _)
  | fuel + 1, op, pos, cs, ts, hlen, h => by
    have hsplit := List.takeWhile_append_dropWhile (p := Text.isXmlBlank) (l := cs)
    have hblank : ∀ c ∈ cs.takeWhile Text.isXmlBlank, Text.isXmlBlank c = true :=
      fun c hc => List.mem_takeWhile_imp hc
    have hfirst : ∀ c ∈ (cs.dropWhile Text.isXmlBlank).head?, Text.isXmlBlank c = false :=
      fun c hc => mem_head?_dropWhile hc
    unfold tokensFrom at h
    simp only [List.span_eq_takeWhile_dropWhile] at h
    generalize cs.takeWhile Text.isXmlBlank = ws at *
    generalize cs.dropWhile Text.isXmlBlank = body at *
    subst hsplit
    split at h
    · cases h
    · rename_i w r heq
      cases h
      cases body with
      | nil =>
        have he : Scanned (op = true) pos ws [(.eof, pos + byteLength ws)] := Scanned.eof hblank
        simpa using he
      | cons c body => exact absurd rfl (scanToken_lexes heq).ne_eof
    · rename_i t w r hne heq
      split at h
      · cases h
      · rename_i ts' hts
        cases h
        cases body with
        | nil =>
          simp only [scanToken, Except.ok.injEq, Prod.mk.injEq] at heq
          exact absurd heq.1.symm hne
        | cons c body =>
          have hl := scanToken_lexes heq
          have hlt : r.length < fuel := by
            have := hl.length_lt
            simp only [List.length_append] at hlen
            omega
          have ih := tokensFrom_scanned fuel hlt hts
          have hallow : ((!t.expectsOperand) = true) = t.AllowsOperator := by
            rw [PathToken.allowsOperator_iff]
            simp
          rw [hallow] at ih
          exact Scanned.token hblank hfirst hl ih

theorem Lexes.width_pos {allowed : Prop} {cs rest : List Char} {t : PathToken} {width : Nat}
    (h : Lexes allowed cs t width rest) : 0 < width := by
  obtain ⟨lex, -, hne, rfl, -⟩ := h
  exact byteLength_pos hne

namespace Scanned

variable {allowed : Prop} {pos : Nat} {cs : List Char} {ts : List (PathToken × Nat)}

theorem offset_ge (h : Scanned allowed pos cs ts) : ∀ p ∈ ts, pos ≤ p.2 := by
  induction h with
  | eof => simp
  | token hws hfirst hlex hrest ih =>
    intro p hp
    rcases List.mem_cons.mp hp with rfl | hp
    · simp
    · have := ih p hp
      omega

theorem offsets_increasing (h : Scanned allowed pos cs ts) :
    (ts.map Prod.snd).Pairwise (· < ·) := by
  induction h with
  | eof => simp
  | token hws hfirst hlex hrest ih =>
    refine List.pairwise_cons.mpr ⟨?_, ih⟩
    intro o ho
    obtain ⟨p, hp, rfl⟩ := List.mem_map.mp ho
    have hwidth := hlex.width_pos
    have := hrest.offset_ge p hp
    omega

theorem offset_prefix (h : Scanned allowed pos cs ts) :
    ∀ p ∈ ts, ∃ pre, pre <+: cs ∧ p.2 = pos + byteLength pre := by
  induction h with
  | @eof allowed pos ws hws =>
    intro p hp
    rw [List.mem_singleton.mp hp]
    exact ⟨ws, List.prefix_refl ws, rfl⟩
  | @token allowed pos ws cs rest t width ts hws hfirst hlex hrest ih =>
    intro p hp
    rcases List.mem_cons.mp hp with rfl | hp
    · exact ⟨ws, List.prefix_append ws cs, rfl⟩
    · obtain ⟨pre, ⟨post, hpost⟩, hoff⟩ := ih p hp
      obtain ⟨lex, hcs, -, hwidth, -⟩ := hlex
      refine ⟨ws ++ lex ++ pre, ⟨post, ?_⟩, ?_⟩
      · rw [hcs, ← hpost]
        simp
      · rw [hoff, hwidth]
        simp only [byteLength_append]
        omega

theorem ends_with_eof (h : Scanned allowed pos cs ts) :
    ∃ body, ts = body ++ [(.eof, pos + byteLength cs)] ∧ ∀ p ∈ body, p.1 ≠ .eof := by
  induction h with
  | eof => exact ⟨[], rfl, by simp⟩
  | @token allowed pos ws cs rest t width ts hws hfirst hlex hrest ih =>
    obtain ⟨body, hbody, hne⟩ := ih
    have ht := hlex.ne_eof
    obtain ⟨lex, hcs, -, hwidth, -⟩ := hlex
    refine ⟨(t, pos + byteLength ws) :: body, ?_, ?_⟩
    · rw [hbody, hcs, hwidth]
      simp only [byteLength_append, List.cons_append, List.cons.injEq, true_and]
      congr 3
      omega
    · intro p hp
      rcases List.mem_cons.mp hp with rfl | hp
      · exact ht
      · exact hne p hp

end Scanned

theorem utf8ByteSize_ofList (l : List Char) : (String.ofList l).utf8ByteSize = byteLength l := by
  induction l with
  | nil => rfl
  | cons c l ih =>
    rw [String.ofList_cons, String.utf8ByteSize_append, String.utf8ByteSize_singleton, ih,
      byteLength_cons]

theorem isValid_of_prefix {s : String} {pre : List Char} (h : pre <+: s.toList) :
    String.Pos.Raw.IsValid s ⟨byteLength pre⟩ := by
  obtain ⟨rest, hs⟩ := h
  rw [String.Pos.Raw.isValid_iff_exists_take_toList]
  refine ⟨pre.length, ?_⟩
  rw [← hs, List.take_left, utf8ByteSize_ofList]

/-- Tokenizing an expression reads all of it by the lexical rules, each token classified by the
token before it (operators not being allowed at the first) and by what follows it. The offsets
strictly increase and are char boundaries, and the tokens end with their one `eof`, at the end of
the expression. -/
theorem tokenize_reads_by_rules {s : String} {ts : List (PathToken × Nat)}
    (h : tokenize s = .ok ts) :
    Scanned False 0 s.toList ts ∧ (ts.map Prod.snd).Pairwise (· < ·) ∧
      (∀ p ∈ ts, String.Pos.Raw.IsValid s ⟨p.2⟩) ∧
      ∃ body, ts = body ++ [(.eof, s.utf8ByteSize)] ∧ ∀ p ∈ body, p.1 ≠ .eof := by
  have hscan : Scanned (false = true) 0 s.toList ts :=
    tokensFrom_scanned (s.length + 1) (by rw [String.length_toList]; omega) h
  rw [show (false = true) = False by simp] at hscan
  refine ⟨hscan, hscan.offsets_increasing, ?_, ?_⟩
  · intro p hp
    obtain ⟨pre, hpre, hoff⟩ := hscan.offset_prefix p hp
    rw [hoff, Nat.zero_add]
    exact isValid_of_prefix hpre
  · obtain ⟨body, hbody, hne⟩ := hscan.ends_with_eof
    refine ⟨body, ?_, hne⟩
    rw [hbody, Nat.zero_add, ← utf8ByteSize_ofList, String.ofList_toList]

/-- `div` between two names is the operator, and either name a name test. -/
theorem tokenize_div_between_names :
    tokenize "div div div" = .ok [(.nameTest none (some "div"), 0), (.divOp, 4),
      (.nameTest none (some "div"), 8), (.eof, 11)] ∧
    Scanned False 0 "div div div".toList [(.nameTest none (some "div"), 0), (.divOp, 4),
      (.nameTest none (some "div"), 8), (.eof, 11)] := by
  have h : tokenize "div div div" = .ok [(.nameTest none (some "div"), 0), (.divOp, 4),
      (.nameTest none (some "div"), 8), (.eof, 11)] := by rfl
  exact ⟨h, (tokenize_reads_by_rules h).1⟩

end Tokens

end XmlPointer.Path
