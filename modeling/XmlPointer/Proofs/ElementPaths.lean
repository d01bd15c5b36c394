import Mathlib
import XmlPointer.Proofs.PathParsing
import XmlPointer.Proofs.IntegerFloats
import XmlPointer.Pointer.Eval

/-! # The expressions of `element()` parts

An `element()` part is evaluated through the text of an XPath expression: `id('X')` when the
part names an ID, the document node otherwise, then `/*[n]` for each child position `n`. This
module follows that text through the whole expression pipeline. The tokenizer turns it into
`idTokens` or `positionTokens` (each position scans back to its number, since reading the
digits of a number gives the number), the parser reads these into `idPath` or a root path of
`positionStep`s, and evaluation walks the element children: the step `*[n]` keeps the element
children of a node, and its predicate keeps the one at position `n`, because the decimal `n`
equals the binary64 value of a position exactly when the position is `n`. The walk is
`childPath`, and the expressions evaluate to the node it reaches, or to no node at all. -/
namespace XmlPointer

section Chars

theorem span_append_of_all {α : Type} {p : α → Bool} {xs ys : List α}
    (hxs : ∀ x ∈ xs, p x = true) (hys : ∀ y ys', ys = y :: ys' → p y = false) :
    (xs ++ ys).span p = (xs, ys) := by
  rw [List.span_eq_takeWhile_dropWhile]
  induction xs with
  | nil =>
    cases ys with
    | nil => rfl
    | cons y ys' => simp [hys y ys' rfl]
  | cons x xs ih =>
    have hx := hxs x (List.mem_cons_self ..)
    have ih' := ih fun z hz => hxs z (List.mem_cons_of_mem _ hz)
    simp only [Prod.mk.injEq] at ih'
    simp [hx, ih'.1, ih'.2]

theorem Text.isNameChar_of_isNameStart {c : Char} (hc : Text.isNameStart c = true) :
    Text.isNameChar c = true := by
  simp [Text.isNameChar, hc]

theorem Text.ne_of_isNameChar {c d : Char} (hc : Text.isNameChar c = true)
    (hd : Text.isNameChar d = false) : c ≠ d := by
  rintro rfl
  rw [hc] at hd
  cases hd

theorem Text.isNCName_toList {X : String} (hX : Text.isNCName X = true) :
    ∃ x xs, X.toList = x :: xs ∧ Text.isNameStart x = true ∧ ∀ c ∈ xs, Text.isNameChar c = true := by
  unfold Text.isNCName at hX
  cases h : X.toList with
  | nil => rw [h] at hX; cases hX
  | cons x xs =>
    rw [h] at hX
    simp only [Text.isNCNameList, Bool.and_eq_true, List.all_eq_true] at hX
    exact ⟨x, xs, rfl, hX.1, hX.2⟩

theorem Text.isNCName_chars {X : String} (hX : Text.isNCName X = true) :
    ∀ c ∈ X.toList, Text.isNameChar c = true := by
  obtain ⟨x, xs, hx, hs, hxs⟩ := Text.isNCName_toList hX
  rw [hx]
  intro c hc
  rcases List.mem_cons.mp hc with rfl | hc
  · exact Text.isNameChar_of_isNameStart hs
  · exact hxs c hc

theorem Text.isXmlBlank_eq_false {p : Char → Bool}
    (hp : [' ', '\t', '\n', '\r'].all (fun b => !p b) = true) {c : Char} (hc : p c = true) :
    Text.isXmlBlank c = false := by
  rw [Bool.eq_false_iff]
  intro h
  have hmem : c ∈ [' ', '\t', '\n', '\r'] := by
    simpa [Text.isXmlBlank, or_assoc] using h
  have hnot := List.all_eq_true.mp hp c hmem
  simp [hc] at hnot

theorem Text.isAsciiBlank_eq_false {p : Char → Bool}
    (hp : [' ', '\t', '\n', '\r', '\x0C'].all (fun b => !p b) = true) {c : Char} (hc : p c = true) :
    Text.isAsciiBlank c = false := by
  have hxml := Text.isXmlBlank_eq_false (List.all_eq_true.mpr fun b hb =>
    List.all_eq_true.mp hp b (List.mem_append_left ['\x0C'] hb)) hc
  have hff : c ≠ '\x0C' := by
    rintro rfl
    have hnot := List.all_eq_true.mp hp '\x0C' (by simp)
    simp [hc] at hnot
  simp [Text.isAsciiBlank, hxml, hff]

end Chars

section Digits

theorem digitChar_value {d : Nat} (hd : d < 10) : (Nat.digitChar d).toNat - '0'.toNat = d := by
  have : d = 0 ∨ d = 1 ∨ d = 2 ∨ d = 3 ∨ d = 4 ∨ d = 5 ∨ d = 6 ∨ d = 7 ∨ d = 8 ∨ d = 9 := by omega
  rcases this with rfl | rfl | rfl | rfl | rfl | rfl | rfl | rfl | rfl | rfl <;> rfl

theorem foldl_toDigits (n : Nat) :
    (Nat.toDigits 10 n).foldl (fun acc c => acc * 10 + (c.toNat - '0'.toNat)) 0 = n := by
  induction n using Nat.strongRecOn with
  | ind n ih =>
    by_cases hn : n < 10
    · rw [Nat.toDigits_of_lt_base hn]
      simp only [List.foldl_cons, List.foldl_nil, Nat.zero_mul, Nat.zero_add, digitChar_value hn]
    · rw [Nat.toDigits_of_base_le (by decide) (by omega), List.foldl_append,
        ih (n / 10) (by omega)]
      simp only [List.foldl_cons, List.foldl_nil, digitChar_value (Nat.mod_lt n (by decide))]
      omega

theorem isDigit_of_mem_toDigits {n : Nat} {c : Char} (hc : c ∈ Nat.toDigits 10 n) :
    c.isDigit = true :=
  Nat.isDigit_of_mem_toDigits (by decide) (by decide) hc

end Digits

namespace Path

theorem tokensFrom_step {fuel : Nat} {op : Bool} {pos : Nat} {c : Char} {cs : List Char}
    {t : PathToken} {width : Nat} {rest : List Char} {ts : Tokens}
    (hc : Text.isXmlBlank c = false) (ht : t.sameAs .eof = false)
    (hscan : scanToken op pos (c :: cs) = .ok (t, width, rest))
    (hts : tokensFrom fuel (!t.expectsOperand) (pos + width) rest = .ok ts) :
    tokensFrom (fuel + 1) op pos (c :: cs) = .ok ((t, pos) :: ts) := by
  have hspan : (c :: cs).span Text.isXmlBlank = ([], c :: cs) := by
    simp [List.span_eq_takeWhile_dropWhile, hc]
  simp only [tokensFrom, hspan]
  have hpos : pos + byteLength [] = pos := rfl
  rw [hpos, hscan]
  split
  · rename_i h
    cases h
  · rename_i h
    cases h
    cases ht
  · rename_i t' w r _ h
    cases h
    rw [hts]

theorem scanToken_digit (op : Bool) (start : Nat) {c : Char} (hc : c.isDigit = true)
    (rest : List Char) : scanToken op start (c :: rest) = .ok (scanNumber (c :: rest)) := by
  have hq : c ≠ Char.ofNat 39 := by rintro rfl; simp at hc
  rw [scanToken.eq_16, if_neg hq, if_pos hc] <;> (intros; subst_vars; simp at hc)

theorem decimalParts_toDigits (n : Nat) : decimalParts (Nat.toDigits 10 n) = (n, 0) := by
  have hfilter : (Nat.toDigits 10 n).filter Char.isDigit = Nat.toDigits 10 n :=
    List.filter_eq_self.mpr fun c hc => isDigit_of_mem_toDigits hc
  -- no point among the digits
  have hdrop : (Nat.toDigits 10 n).dropWhile (fun c => decide (c ≠ '.')) = [] := by
    refine List.dropWhile_eq_nil_iff.mpr fun c hc => ?_
    have hd := isDigit_of_mem_toDigits hc
    simp only [ne_eq, decide_eq_true_eq]
    rintro rfl
    cases hd
  simp only [decimalParts, hfilter, foldl_toDigits, hdrop]
  rfl

theorem scanNumber_toDigits (n : Nat) (rest : List Char) :
    scanNumber (Nat.toDigits 10 n ++ ']' :: rest) =
      (.number (Binary64.ofDecimal false n 0), (Nat.toDigits 10 n).length, ']' :: rest) := by
  have hspan : (Nat.toDigits 10 n ++ ']' :: rest).span Char.isDigit = (Nat.toDigits 10 n, ']' :: rest) :=
    span_append_of_all (fun c hc => isDigit_of_mem_toDigits hc) (fun y ys h => by cases h; rfl)
  calc scanNumber (Nat.toDigits 10 n ++ ']' :: rest)
      = (.number (Binary64.ofDecimal false (decimalParts (Nat.toDigits 10 n ++ [])).1
            (decimalParts (Nat.toDigits 10 n ++ [])).2),
          (Nat.toDigits 10 n ++ []).length, ']' :: rest) := by
        unfold scanNumber
        rw [hspan]
        rfl
    _ = _ := by simp only [List.append_nil, decimalParts_toDigits]

def positionStep (n : Nat) : Step Expr :=
  ⟨.child, .any, [.number (Binary64.ofDecimal false n 0)]⟩

def positionsText (ns : List Nat) : String :=
  String.join (ns.map fun p => "/*[" ++ toString p ++ "]")

/-- The tokens of `positionsText` from byte offset `pos`, ending with `eof`. -/
def positionTokens : Nat → List Nat → Tokens
  | pos, [] => [(.eof, pos)]
  | pos, n :: ns =>
    (.slash, pos) :: (.nameTest none none, pos + 1) :: (.leftBracket, pos + 2) ::
      (.number (Binary64.ofDecimal false n 0), pos + 3) ::
      (.rightBracket, pos + 3 + (toString n).length) :: positionTokens (pos + 4 + (toString n).length) ns

theorem positionsText_cons (n : Nat) (ns : List Nat) :
    (positionsText (n :: ns)).toList =
      '/' :: '*' :: '[' :: (Nat.toDigits 10 n ++ ']' :: (positionsText ns).toList) := by
  simp [positionsText, String.join_cons]

theorem tokensFrom_positions (ns : List Nat) : ∀ (fuel : Nat) (op : Bool) (pos : Nat),
    5 * ns.length ≤ fuel →
      tokensFrom fuel op pos (positionsText ns).toList = .ok (positionTokens pos ns) := by
  induction ns with
  | nil =>
    intro fuel op pos _
    cases fuel <;> rfl
  | cons n ns ih =>
    intro fuel op pos hfuel
    obtain ⟨f, rfl⟩ : ∃ f, fuel = f + 5 := ⟨fuel - 5, by simp at hfuel; omega⟩
    obtain ⟨d, ds, hds⟩ : ∃ d ds, Nat.toDigits 10 n = d :: ds :=
      List.exists_cons_of_ne_nil Nat.toDigits_ne_nil
    have hw : (toString n).length = (Nat.toDigits 10 n).length := by
      rw [← String.length_toList]
      simp
    -- the five tokens of `/*[n]`, from the last one back
    have hclose : tokensFrom (f + 1) true (pos + 3 + (toString n).length)
        (']' :: (positionsText ns).toList) =
        .ok ((.rightBracket, pos + 3 + (toString n).length) ::
          positionTokens (pos + 4 + (toString n).length) ns) := by
      refine tokensFrom_step (by decide) rfl rfl ?_
      rw [show pos + 3 + (toString n).length + 1 = pos + 4 + (toString n).length by omega]
      exact ih f true _ (by simp at hfuel; omega)
    have hdigit : d.isDigit = true :=
      isDigit_of_mem_toDigits (by rw [hds]; exact List.mem_cons_self ..)
    have hscan : scanToken false (pos + 3) (d :: (ds ++ ']' :: (positionsText ns).toList)) =
        .ok (.number (Binary64.ofDecimal false n 0), (toString n).length,
          ']' :: (positionsText ns).toList) := by
      rw [scanToken_digit _ _ hdigit, ← List.cons_append, ← hds, scanNumber_toDigits, hw]
    have hnumber : tokensFrom (f + 1 + 1) false (pos + 3)
        (Nat.toDigits 10 n ++ ']' :: (positionsText ns).toList) =
        .ok ((.number (Binary64.ofDecimal false n 0), pos + 3) ::
          (.rightBracket, pos + 3 + (toString n).length) ::
          positionTokens (pos + 4 + (toString n).length) ns) := by
      rw [hds, List.cons_append]
      exact tokensFrom_step (Text.isXmlBlank_eq_false (by decide) hdigit) rfl hscan hclose
    rw [positionsText_cons]
    refine tokensFrom_step (by decide) rfl rfl ?_
    refine tokensFrom_step (by decide) rfl rfl ?_
    refine tokensFrom_step (by decide) rfl rfl ?_
    exact hnumber

theorem length_positionsText (ns : List Nat) : 5 * ns.length ≤ (positionsText ns).toList.length := by
  induction ns with
  | nil => simp
  | cons n ns ih =>
    rw [positionsText_cons]
    have := Nat.length_toDigits_pos (b := 10) (n := n)
    simp only [List.length_cons, List.length_append, List.length_cons]
    omega

theorem tokenize_positionsText (ns : List Nat) :
    tokenize (positionsText ns) = .ok (positionTokens 0 ns) := by
  have := length_positionsText ns
  exact tokensFrom_positions ns _ false 0 (by rw [← String.length_toList]; omega)

theorem scanLiteral_name {X : String} (hX : Text.isNCName X = true) (start : Nat)
    (rest : List Char) :
    scanLiteral '\'' (X.toList ++ '\'' :: rest) start =
      .ok (.literal X, byteLength X.toList + 2, rest) := by
  have hspan : (X.toList ++ '\'' :: rest).span (· ≠ '\'') = (X.toList, '\'' :: rest) := by
    refine span_append_of_all (fun c hc => ?_) (fun y ys h => by cases h; simp)
    have := Text.ne_of_isNameChar (Text.isNCName_chars hX c hc) (d := '\'') (by decide)
    simpa using this
  simp only [scanLiteral, hspan, String.ofList_toList]

/-- The tokens of `id('X')` followed by the steps of the positions. -/
def idTokens (X : String) (ns : List Nat) : Tokens :=
  (.functionName "id", 0) :: (.leftParen, 2) :: (.literal X, 3) ::
    (.rightParen, 3 + (byteLength X.toList + 2)) ::
    positionTokens (3 + (byteLength X.toList + 2) + 1) ns

theorem tokenize_idPositions {X : String} (hX : Text.isNCName X = true) (ns : List Nat) :
    tokenize ("id('" ++ X ++ "')" ++ positionsText ns) = .ok (idTokens X ns) := by
  have hlen := length_positionsText ns
  have hchars : ("id('" ++ X ++ "')" ++ positionsText ns).toList =
      'i' :: 'd' :: '(' :: '\'' :: (X.toList ++ '\'' :: ')' :: (positionsText ns).toList) := by
    simp
  unfold tokenize
  rw [hchars]
  obtain ⟨f, hf⟩ : ∃ f, ("id('" ++ X ++ "')" ++ positionsText ns).length + 1 = f + 4 := by
    refine ⟨("id('" ++ X ++ "')" ++ positionsText ns).length - 3, ?_⟩
    rw [← String.length_toList, hchars]
    simp only [List.length_cons, List.length_append]
    omega
  have hfuel : 5 * ns.length ≤ f := by
    rw [← String.length_toList, hchars] at hf
    simp only [List.length_cons, List.length_append] at hf
    omega
  rw [hf]
  refine tokensFrom_step (by decide) rfl rfl ?_
  refine tokensFrom_step (by decide) rfl rfl ?_
  refine tokensFrom_step (by decide) rfl (scanLiteral_name hX _ _) ?_
  refine tokensFrom_step (by decide) rfl rfl ?_
  exact tokensFrom_positions ns f true _ hfuel

theorem length_positionTokens (pos : Nat) (ns : List Nat) :
    (positionTokens pos ns).length = 5 * ns.length + 1 := by
  induction ns generalizing pos with
  | nil => rfl
  | cons n ns ih =>
    simp only [positionTokens, List.length_cons, ih]
    omega

theorem positionTokens_head (pos : Nat) (ns : List Nat) :
    ∃ t q rest, positionTokens pos ns = (t, q) :: rest ∧ t.sameAs .leftBracket = false := by
  cases ns with
  | nil => exact ⟨_, _, _, rfl, rfl⟩
  | cons n ns => exact ⟨_, _, _, rfl, rfl⟩

section Parsing

open TokenParser

theorem Reads.position (n a b c d pos : Nat) (ns : List Nat) :
    Reads 24 step ((.nameTest none none, a) :: (.leftBracket, b) ::
      (.number (Binary64.ofDecimal false n 0), c) :: (.rightBracket, d) :: positionTokens pos ns)
      (positionTokens pos ns) (positionStep n) := by
  obtain ⟨t, q, rest, hts, ht⟩ := positionTokens_head pos ns
  rw [hts]
  have hnumber := Reads.number (p := c) (Binary64.ofDecimal false n 0)
    (List.cons_ne_nil (PathToken.rightBracket, d) ((t, q) :: rest))
  have hexpr := ((hnumber.filterPath rfl).pathExpr rfl).expr_of_pathExpr rfl rfl
  exact (hexpr.predicate ht (List.cons_ne_nil _ _)).childStep (List.cons_ne_nil _ _)

theorem Reads.positions (ns : List Nat) : ∀ pos, ∃ q,
    Reads (25 + ns.length) TokenParser.stepsRest (positionTokens pos ns) [(.eof, q)]
      (ns.map positionStep) := by
  induction ns with
  | nil =>
    intro pos
    refine ⟨pos, fun f hf => ?_⟩
    obtain ⟨g, rfl⟩ : ∃ g, f = g + 1 := ⟨f - 1, by omega⟩
    exact stepsRest_eof g
  | cons n ns ih =>
    intro pos
    obtain ⟨q, hq⟩ := ih (pos + 4 + (toString n).length)
    refine ⟨q, ?_⟩
    have hstep := (Reads.position n (pos + 1) (pos + 2) (pos + 3) (pos + 3 + (toString n).length)
      (pos + 4 + (toString n).length) ns).mono (by omega : 24 ≤ 25 + ns.length)
    exact (hstep.stepsRest hq (List.cons_ne_nil _ _)).mono (by simp only [List.length_cons]; omega)

/-- The expression `id('X')` with the steps of the positions after it. -/
def idPath (X : String) : List Nat → Expr
  | [] => .call "id" [.literal X]
  | n :: ns => .exprPath (.call "id" [.literal X]) (positionStep n :: ns.map positionStep)

theorem Reads.positionsPath (n : Nat) (ns : List Nat) (pos : Nat) : ∃ q,
    Reads (25 + ns.length + 1) TokenParser.relativePath ((positionTokens pos (n :: ns)).drop 1) [(.eof, q)]
      (positionStep n :: ns.map positionStep) := by
  obtain ⟨q, hsteps⟩ := Reads.positions ns (pos + 4 + (toString n).length)
  have hstep := Reads.position n (pos + 1) (pos + 2) (pos + 3) (pos + 3 + (toString n).length)
    (pos + 4 + (toString n).length) ns
  exact ⟨q, (hstep.mono (by omega : 24 ≤ 25 + ns.length)).relativePath hsteps⟩

theorem parse_positionsText {ns : List Nat} (hns : ns ≠ []) :
    parse (positionsText ns) = .ok (.rootPath (ns.map positionStep)) := by
  obtain ⟨n, ns, rfl⟩ := List.exists_cons_of_ne_nil hns
  obtain ⟨q, hrel⟩ := Reads.positionsPath n ns 0
  have hpath := hrel.rootPath (p := 0)
  refine parse_of_reads (tokenize_positionsText _) (hpath.expr_of_pathExpr rfl rfl) ?_
  rw [length_positionTokens]
  simp only [List.length_cons]
  omega

theorem parse_idPositions {X : String} (hX : Text.isNCName X = true) (ns : List Nat) :
    parse ("id('" ++ X ++ "')" ++ positionsText ns) = .ok (idPath X ns) := by
  -- the call `id('X')`, whatever positions follow it
  have hcall : ∀ ns, Reads 22 primaryExpr (idTokens X ns)
      (positionTokens (3 + (byteLength X.toList + 2) + 1) ns) (.call "id" [.literal X]) := by
    intro ns
    obtain ⟨t, q, rest, hts, -⟩ := positionTokens_head (3 + (byteLength X.toList + 2) + 1) ns
    have hliteral := Reads.literal (p := 3) X
      (List.cons_ne_nil (PathToken.rightParen, 3 + (byteLength X.toList + 2))
        (positionTokens (3 + (byteLength X.toList + 2) + 1) ns))
    have hexpr := ((hliteral.filterPath rfl).pathExpr rfl).expr_of_pathExpr rfl rfl
    exact hexpr.call "id" rfl (by rw [hts]; exact List.cons_ne_nil _ _)
  have htokens := tokenize_idPositions hX ns
  cases ns with
  | nil =>
    have hpath := ((hcall []).filterPath rfl).pathExpr rfl
    refine parse_of_reads htokens (hpath.expr_of_pathExpr rfl rfl) ?_
    simp [idTokens, positionTokens]
  | cons n ns =>
    -- the positions start after `)`
    obtain ⟨q, hrel⟩ := Reads.positionsPath n ns (3 + (byteLength X.toList + 2) + 1)
    have hpath := (((hcall (n :: ns)).mono (by omega : 22 ≤ 25 + ns.length + 1)).exprPath hrel
      (List.cons_ne_nil _ _)).pathExpr rfl
    refine parse_of_reads htokens (hpath.expr_of_pathExpr rfl rfl) ?_
    simp only [idTokens, List.length_cons, length_positionTokens]
    omega

end Parsing

section Evaluation

theorem pure_eq_ok {ε α : Type} (a : α) : (pure a : Except ε α) = .ok a := rfl

def elementChildren (d : Document) (m : Nat) : List Nat :=
  (d.children m).filter fun id => d.kind? id == some .element

/-- The node reached from `m` by taking, for each position `n` in turn, the `n`th element
child; none when some node on the way has fewer element children. -/
def childPath (d : Document) : Nat → List Nat → Option Nat
  | m, [] => some m
  | m, n :: ns => (elementChildren d m)[n - 1]?.bind fun c => childPath d c ns

variable {c : Context}

theorem selectByTest_any (d : Document) (ns : Bindings) (l : List Nat) :
    selectByTest d ns .any l = .ok (l.filter fun id => d.kind? id == some .element) := by
  induction l with
  | nil => rfl
  | cons id l ih =>
    have htest : matchesTest d ns id .any = .ok (d.kind? id == some .element) := by
      unfold matchesTest
      cases d.kind? id <;> simp
    simp only [selectByTest, htest, ih, ok_bind, List.filter_cons]
    cases d.kind? id == some .element <;> rfl

theorem keeps_position {n : Nat} (hn : 1 ≤ n) (hn' : n < 2 ^ 53) (p : Nat) :
    (Value.number (Binary64.ofDecimal false n 0)).keeps p = decide (p = n) := by
  have h := Binary64.ofScientific_beq_ofNat (by omega : 0 < n) hn' p
  simp only [Value.keeps, Binary64.ofDecimal, Bool.false_eq_true, ↓reduceIte]
  rw [Bool.eq_iff_iff, h, decide_eq_true_iff]

theorem filterBy_position {n : Nat} (hn : 1 ≤ n) (hn' : n < 2 ^ 53) (size : Nat) (l : List Nat) :
    ∀ k, filterBy c (.number (Binary64.ofDecimal false n 0)) size (l.zipIdx k) =
      .ok (if k ≤ n then l[n - k]?.toList else []) := by
  induction l with
  | nil => intro k; simp [filterBy]
  | cons a l ih =>
    intro k
    simp only [List.zipIdx_cons, filterBy, eval, ok_bind, ih (k + 1), keeps_position hn hn']
    by_cases hk : k = n
    · -- the node at position `n` is kept, and no later one
      subst hk
      simp [pure_eq_ok, Nat.not_succ_le_self k]
    · by_cases hlt : k < n
      · -- an earlier node is dropped
        have hsub : n - k = (n - (k + 1)) + 1 := by omega
        simp [hk, Nat.succ_le_of_lt hlt, hsub, Nat.le_of_lt hlt, pure_eq_ok]
      · -- past position `n` nothing is kept
        have h₁ : ¬ k + 1 ≤ n := by omega
        have h₂ : ¬ k ≤ n := by omega
        simp [hk, h₁, h₂, pure_eq_ok]

theorem normalize_toList (o : Option Nat) : normalize o.toList = o.toList := by
  cases o <;> simp [normalize, dedupSorted]

theorem evalSteps_position {n : Nat} (hn : 1 ≤ n) (hn' : n < 2 ^ 53) (steps : List (Step Expr))
    (o : Option Nat) :
    evalSteps c (positionStep n :: steps) (.nodes o.toList) =
      evalSteps c steps (.nodes ((o.bind fun m => (elementChildren c.doc m)[n - 1]?).toList)) := by
  have hfilter : ∀ ids : List Nat, filterAll c [.number (Binary64.ofDecimal false n 0)] ids =
      .ok ids[n - 1]?.toList := by
    intro ids
    simp only [filterAll, filterBy_position hn hn', ok_bind, show 1 ≤ n from hn, if_true]
  cases o with
  | none => simp [positionStep, evalSteps, Value.toNodes, normalize, dedupSorted]
  | some m =>
    simp only [positionStep, evalSteps, Value.toNodes, ok_bind, Option.toList_some]
    simp [axisNodes, selectByTest_any, hfilter, elementChildren, normalize_toList]

theorem evalSteps_positions {ns : List Nat} (hns : ∀ n ∈ ns, 1 ≤ n ∧ n < 2 ^ 53) :
    ∀ o : Option Nat, evalSteps c (ns.map positionStep) (.nodes o.toList) =
      .ok (.nodes ((o.bind fun m => childPath c.doc m ns).toList)) := by
  induction ns with
  | nil =>
    intro o
    cases o <;> simp [evalSteps, childPath]
  | cons n ns ih =>
    intro o
    have hn := hns n (List.mem_cons_self ..)
    rw [List.map_cons, evalSteps_position hn.1 hn.2, ih (fun k hk => hns k (List.mem_cons_of_mem _ hk))]
    cases o <;> simp [childPath]

theorem wordsBy_of_forall {p : Char → Bool} {cs : List Char} (hcs : ∀ c ∈ cs, p c = false) :
    ∀ word : List Char, word ≠ [] ∨ cs ≠ [] → Text.wordsBy p word cs = [word.reverse ++ cs] := by
  induction cs with
  | nil =>
    intro word hword
    have hne : word ≠ [] := by simpa using hword
    simp [Text.wordsBy, hne]
  | cons c cs ih =>
    intro word _
    have hc := hcs c (List.mem_cons_self ..)
    rw [Text.wordsBy, hc, ih (fun x hx => hcs x (List.mem_cons_of_mem _ hx)) (c :: word)
      (.inl (List.cons_ne_nil _ _))]
    simp

theorem asciiWords_name {X : String} (hX : Text.isNCName X = true) : Text.asciiWords X = [X] := by
  obtain ⟨x, xs, hx, -, -⟩ := Text.isNCName_toList hX
  have hblank : ∀ c ∈ X.toList, Text.isAsciiBlank c = false :=
    fun c hc => Text.isAsciiBlank_eq_false (by decide) (Text.isNCName_chars hX c hc)
  simp [Text.asciiWords, wordsBy_of_forall hblank [] (.inr (by simp [hx]))]

theorem eval_id {X : String} (hX : Text.isNCName X = true) :
    eval c (.call "id" [.literal X]) = .ok (.nodes (c.doc.elementById X).toList) := by
  simp only [eval, evalArgs, ok_bind, pure_eq_ok]
  simp [callFunction, CoreFunction.ofName?, checkArity, CoreFunction.arity, CoreFunction.apply,
    argument, elementsById, Value.atoms, Value.toText, asciiWords_name hX]
  cases h : c.doc.elementById X <;> simp [h, normalize, dedupSorted]

theorem eval_idPath {X : String} (hX : Text.isNCName X = true) {ns : List Nat}
    (hns : ∀ n ∈ ns, 1 ≤ n ∧ n < 2 ^ 53) :
    eval c (idPath X ns) = .ok (.nodes (((c.doc.elementById X).bind fun m => childPath c.doc m ns).toList)) := by
  cases ns with
  | nil => simp [idPath, eval_id hX, childPath]
  | cons n ns =>
    simp only [idPath, eval, eval_id hX, ok_bind]
    exact evalSteps_positions hns _

end Evaluation

theorem evaluate_elementExpression_some (d : Document) (node : Nat) (b : Bindings) {X : String}
    (hX : Text.isNCName X = true) {ns : List Nat} (hns : ∀ n ∈ ns, 1 ≤ n ∧ n < 2 ^ 53) :
    evaluate d node (Part.elementExpression (some X) ns) b =
      .ok (.nodes (((d.elementById X).bind fun m => childPath d m ns).toList)) := by
  have htext : Part.elementExpression (some X) ns = "id('" ++ X ++ "')" ++ positionsText ns := rfl
  simp only [evaluate, htext, parse_idPositions hX, ok_bind]
  exact eval_idPath hX hns

theorem evaluate_elementExpression_none (d : Document) (node : Nat) (b : Bindings) {ns : List Nat}
    (hne : ns ≠ []) (hns : ∀ n ∈ ns, 1 ≤ n ∧ n < 2 ^ 53) :
    evaluate d node (Part.elementExpression none ns) b = .ok (.nodes (childPath d 0 ns).toList) := by
  have htext : Part.elementExpression none ns = positionsText ns := by
    simp [Part.elementExpression, positionsText]
  simp only [evaluate, htext, parse_positionsText hne, ok_bind, eval]
  exact evalSteps_positions hns (some 0)

theorem evaluate_id (d : Document) (node : Nat) (b : Bindings) {X : String}
    (hX : Text.isNCName X = true) :
    evaluate d node ("id('" ++ X ++ "')") b = .ok (.nodes (d.elementById X).toList) := by
  have h := evaluate_elementExpression_some d node b hX
    (fun n (hn : n ∈ ([] : List Nat)) => by cases hn)
  simpa [Part.elementExpression, childPath] using h

end Path

end XmlPointer
