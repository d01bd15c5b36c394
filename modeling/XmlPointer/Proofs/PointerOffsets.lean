import Mathlib
import XmlPointer.Proofs.PointerLexing

/-! # Offsets of the pointer lexer

The pointer lexer keeps the unread text and the count of characters read. Every read, whether
it succeeds or fails, takes whole characters from the front of the unread text and counts each
of them, and a failure it reports is at an offset it has reached (`Reads`). So after any calls
on a text the lexer stands at a character boundary, its offset the number of characters before
it, and every error is at an offset within the text; and a lexeme other than the end, or scheme
data, is read only by taking at least one character (`calls_keep_character_offsets`). -/
namespace XmlPointer

theorem Spells.front_ne_nil {lx : Lexeme} {t r : List Char} (h : Spells lx t r) (hlx : lx ≠ .eof) :
    ∃ pre, pre ≠ [] ∧ t = pre ++ r := by
  cases h with
  | eof => exact absurd rfl hlx
  | punctuation r _ => exact ⟨[_], List.cons_ne_nil _ _, rfl⟩
  | space hne _ _ => exact ⟨_, hne, rfl⟩
  | number hne _ _ _ => exact ⟨_, hne, rfl⟩
  | name hN _ =>
    obtain ⟨x, xs, hx, -⟩ := Text.isNCName_toList hN
    exact ⟨_, by rw [hx]; exact List.cons_ne_nil x xs, rfl⟩
  | @qualifiedName p n r _ _ _ => exact ⟨p.toList ++ ':' :: n.toList, by simp, by simp⟩

namespace PointerLexer

/-- The error of a read that fails. -/
def faultOf {α : Type} : Except PointerError α → Option PointerError
  | .error e => some e
  | .ok _ => none

@[simp] theorem faultOf_map {α β : Type} (f : α → β) (x : Except PointerError α) :
    faultOf (x.map f) = faultOf x := by
  cases x <;> rfl

/-- A read from `l` that leaves `l'` and reports `fault`: it takes characters from the front of
the unread text and counts each of them, and what it reports is a malformation at an offset it
has reached. -/
structure Reads (l : PointerLexer) (fault : Option PointerError) (l' : PointerLexer) : Prop where
  consumes : ∃ pre, l.rest = pre ++ l'.rest ∧ l'.offset = l.offset + pre.length
  reached : ∀ e ∈ fault, ∃ f p, e = .malformed f p ∧ p ≤ l'.offset

namespace Reads

theorem taking {l l' : PointerLexer} (pre : List Char) (hrest : l.rest = pre ++ l'.rest)
    (hoff : l'.offset = l.offset + pre.length) : Reads l none l' :=
  ⟨⟨pre, hrest, hoff⟩, fun _ he => by cases he⟩

theorem refl (l : PointerLexer) : Reads l none l :=
  taking [] rfl rfl

theorem trans {l₁ l₂ l₃ : PointerLexer} {fault : Option PointerError} (h₁ : Reads l₁ none l₂)
    (h₂ : Reads l₂ fault l₃) : Reads l₁ fault l₃ := by
  obtain ⟨pre₁, hrest₁, hoff₁⟩ := h₁.consumes
  obtain ⟨pre₂, hrest₂, hoff₂⟩ := h₂.consumes
  refine ⟨⟨pre₁ ++ pre₂, by rw [hrest₁, hrest₂, List.append_assoc], ?_⟩, h₂.reached⟩
  rw [hoff₂, hoff₁, List.length_append]
  omega

theorem prepend {cs : List Char} {at_ : Nat} {fault : Option PointerError} {l' : PointerLexer}
    (front : List Char) (h : Reads ⟨cs, at_ + front.length⟩ fault l') :
    Reads ⟨front ++ cs, at_⟩ fault l' := by
  obtain ⟨pre, hrest, hoff⟩ := h.consumes
  refine ⟨⟨front ++ pre, by simp only at hrest ⊢; rw [hrest, List.append_assoc], ?_⟩, h.reached⟩
  simp only at hoff ⊢
  rw [hoff, List.length_append]
  omega

theorem malformed {cs : List Char} (pre : List Char) {at_ p : Nat} {f : PointerFault}
    (hp : p ≤ at_ + pre.length) :
    Reads ⟨pre ++ cs, at_⟩ (some (.malformed f p)) ⟨cs, at_ + pre.length⟩ := by
  refine ⟨⟨pre, rfl, rfl⟩, ?_⟩
  intro e he
  cases he
  exact ⟨f, p, rfl, hp⟩

end Reads

theorem nextChar_reads (l : PointerLexer) : Reads l none l.nextChar.2 := by
  unfold nextChar
  split
  · rename_i c cs hrest
    exact Reads.taking [c] (by rw [hrest]; rfl) rfl
  · exact Reads.refl l

theorem skipBlanks_reads (l : PointerLexer) : Reads l none l.skipBlanks.2 := by
  obtain ⟨bs, hbs, -, -, hoff, -⟩ := skipBlanks_spec l
  exact Reads.taking bs hbs hoff

theorem name?_reads (l : PointerLexer) : Reads l none l.name?.2 := by
  rcases hn : l.name? with ⟨_ | n, l'⟩
  · rw [(name?_eq_none hn).1]
    exact Reads.refl l
  · obtain ⟨hrest, -, -, hoff⟩ := name?_eq_some hn
    exact Reads.taking n.toList hrest (by rw [hoff, String.length_toList])

theorem numberFrom_reads {start : Nat} : ∀ (value at_ : Nat) (cs : List Char), start ≤ at_ →
    Reads ⟨cs, at_⟩ (faultOf (numberFrom start value at_ cs).1) (numberFrom start value at_ cs).2
  | _, at_, [], _ => Reads.refl _
  | value, at_, c :: cs, hstart => by
    by_cases hdigit : c.isDigit = true
    · by_cases hlimit : value * 10 + (c.toNat - '0'.toNat) > numberLimit
      · rw [numberFrom, if_pos hdigit, if_pos hlimit]
        exact Reads.malformed [c] (by simp; omega)
      · rw [numberFrom, if_pos hdigit, if_neg hlimit]
        exact Reads.prepend [c] (numberFrom_reads _ (at_ + 1) cs (by omega))
    · rw [numberFrom, if_neg hdigit]
      exact Reads.refl _

theorem escapedFrom_reads (depth at_ : Nat) (cs : List Char) :
    Reads ⟨cs, at_⟩ (faultOf (escapedFrom depth at_ cs).1) (escapedFrom depth at_ cs).2 := by
  fun_induction escapedFrom depth at_ cs with
  | case1 at_ => exact Reads.malformed [] (by simp)
  | case2 at_ => exact Reads.malformed ['^'] (by simp)
  | case4 depth at_ c cs _ => exact Reads.malformed ['^', c] (by simp)
  | case6 at_ cs => exact Reads.taking [')'] rfl rfl
  | case3 depth at_ c cs _ r l hr ih =>
    rw [hr] at ih
    simpa using Reads.prepend ['^', c] ih
  -- one plain character or bracket, the data going on after it
  | case5 | case7 | case8 =>
    rename_i hr ih
    rw [hr] at ih
    simpa using Reads.prepend [_] ih

theorem escapedData_reads (l : PointerLexer) :
    Reads l (faultOf l.escapedData.1) l.escapedData.2 := by
  simpa [escapedData] using escapedFrom_reads 0 l.offset l.rest

theorem nameLexeme_reads (l : PointerLexer) :
    Reads l (faultOf (nameLexeme l).1) (nameLexeme l).2 := by
  have hname := name?_reads l
  unfold nameLexeme
  rcases hn : l.name? with ⟨_ | n, l₁⟩
  · rw [hn] at hname
    exact hname.trans (Reads.malformed [] (by simp))
  · rw [hn] at hname
    dsimp only
    split
    · -- a colon, then the local part of a qualified name
      rename_i cs hcolon
      have hcolon' : Reads l₁ none (l₁.after 1 cs) := Reads.taking [':'] (by rw [hcolon]; rfl) rfl
      have hlocal := name?_reads (l₁.after 1 cs)
      rcases hm : (l₁.after 1 cs).name? with ⟨_ | m, l₂⟩
      · rw [hm] at hlocal
        exact (hname.trans hcolon').trans (hlocal.trans (Reads.malformed [] (by simp)))
      · rw [hm] at hlocal
        exact (hname.trans hcolon').trans hlocal
    · exact hname

theorem nextLexeme_reads (l : PointerLexer) :
    Reads l (faultOf (nextLexeme l).1) (nextLexeme l).2 := by
  unfold nextLexeme
  split
  · exact Reads.refl l
  · rename_i c cs hrest
    split
    · exact Reads.taking [c] (by rw [hrest]; rfl) rfl
    · split_ifs
      · exact skipBlanks_reads l
      · simpa using numberFrom_reads 0 l.offset l.rest le_rfl
      · exact nameLexeme_reads l
      · exact Reads.malformed [] (by simp)

theorem nextLexeme_takes {l l' : PointerLexer} {lx : Lexeme} (h : nextLexeme l = (.ok lx, l'))
    (hlx : lx ≠ .eof) : ∃ pre, pre ≠ [] ∧ l.rest = pre ++ l'.rest ∧ l'.offset = l.offset + pre.length := by
  obtain ⟨hspells, hoff⟩ := nextLexeme_sound h
  obtain ⟨pre, hne, hrest⟩ := hspells.front_ne_nil hlx
  refine ⟨pre, hne, hrest, ?_⟩
  rw [hoff, hrest, List.length_append]
  omega

theorem escapedData_takes {l l' : PointerLexer} {v : String} (h : escapedData l = (.ok v, l')) :
    ∃ pre, pre ≠ [] ∧ l.rest = pre ++ l'.rest ∧ l'.offset = l.offset + pre.length := by
  obtain ⟨data, hrest, -, hoff⟩ := escapedData_eq_ok_iff.mp h
  exact ⟨data ++ [')'], by simp, by rw [hrest]; simp, by rw [hoff, List.length_append]; rfl⟩

/-! ## Runs of calls -/

/-- A call a parser makes on the lexer. -/
inductive Call where
  | nextLexeme
  | escapedData
  | skipBlanks
  | name
  | nextChar
  deriving Repr, DecidableEq

/-- What a call reports when it fails, and the lexer after it. -/
def Call.apply (l : PointerLexer) : Call → Option PointerError × PointerLexer
  | .nextLexeme => (faultOf l.nextLexeme.1, l.nextLexeme.2)
  | .escapedData => (faultOf l.escapedData.1, l.escapedData.2)
  | .skipBlanks => (none, l.skipBlanks.2)
  | .name => (none, l.name?.2)
  | .nextChar => (none, l.nextChar.2)

theorem Call.apply_reads (l : PointerLexer) (c : Call) : Reads l (c.apply l).1 (c.apply l).2 := by
  cases c with
  | nextLexeme => exact nextLexeme_reads l
  | escapedData => exact escapedData_reads l
  | skipBlanks => exact skipBlanks_reads l
  | name => exact name?_reads l
  | nextChar => exact nextChar_reads l

/-- Makes calls in turn, failed or not: the errors reported, in order, and the lexer after them. -/
def runCalls : PointerLexer → List Call → List PointerError × PointerLexer
  | l, [] => ([], l)
  | l, c :: cs => ((c.apply l).1.toList ++ (runCalls (c.apply l).2 cs).1, (runCalls (c.apply l).2 cs).2)

def Positioned (s : String) (l : PointerLexer) : Prop :=
  ∃ pre, s.toList = pre ++ l.rest ∧ l.offset = pre.length

theorem positioned_ofString (s : String) : Positioned s (ofString s) :=
  ⟨[], rfl, rfl⟩

theorem Positioned.reads {s : String} {l l' : PointerLexer} {fault : Option PointerError}
    (hl : Positioned s l) (h : Reads l fault l') :
    Positioned s l' ∧ ∀ e ∈ fault, ∃ f p, e = .malformed f p ∧ p ≤ s.length := by
  obtain ⟨pre, hs, hoff⟩ := hl
  obtain ⟨more, hrest, hoff'⟩ := h.consumes
  have hpos : Positioned s l' :=
    ⟨pre ++ more, by rw [hs, hrest, List.append_assoc], by rw [hoff', hoff, List.length_append]⟩
  refine ⟨hpos, fun e he => ?_⟩
  obtain ⟨f, p, rfl, hp⟩ := h.reached e he
  obtain ⟨read, hs', hoff''⟩ := hpos
  refine ⟨f, p, rfl, ?_⟩
  rw [← String.length_toList, hs', List.length_append]
  omega

theorem runCalls_positioned {s : String} : ∀ (calls : List Call) {l : PointerLexer},
    Positioned s l → Positioned s (runCalls l calls).2 ∧
      ∀ e ∈ (runCalls l calls).1, ∃ f p, e = .malformed f p ∧ p ≤ s.length
  | [], _, hl => ⟨hl, fun _ he => by cases he⟩
  | c :: cs, l, hl => by
    obtain ⟨hl', hfault⟩ := hl.reads (c.apply_reads l)
    obtain ⟨hend, hlater⟩ := runCalls_positioned cs hl'
    refine ⟨hend, fun e he => ?_⟩
    rcases List.mem_append.mp he with he | he
    · exact hfault e (Option.mem_toList.mp he)
    · exact hlater e he

/-- After any calls on a text, failed or not, the lexer stands at a character boundary of the
text: it has read whole characters `pre`, whose bytes end at a valid position, and its offset is
their number. Every error reported along the way is a malformation at an offset within the text.
A lexeme other than the end, and scheme data, are read only by taking at least one character. -/
theorem calls_keep_character_offsets (s : String) (calls : List Call) :
    (∃ pre, s.toList = pre ++ (runCalls (ofString s) calls).2.rest ∧
      (runCalls (ofString s) calls).2.offset = pre.length ∧
      (String.ofList pre).rawEndPos.IsValid s) ∧
    (∀ e ∈ (runCalls (ofString s) calls).1, ∃ f p, e = .malformed f p ∧ p ≤ s.length) ∧
    (∀ (l l' : PointerLexer) (lx : Lexeme), nextLexeme l = (.ok lx, l') → lx ≠ .eof →
      ∃ pre, pre ≠ [] ∧ l.rest = pre ++ l'.rest ∧ l'.offset = l.offset + pre.length) ∧
    (∀ (l l' : PointerLexer) (v : String), escapedData l = (.ok v, l') →
      ∃ pre, pre ≠ [] ∧ l.rest = pre ++ l'.rest ∧ l'.offset = l.offset + pre.length) := by
  obtain ⟨⟨pre, hs, hoff⟩, herrors⟩ := runCalls_positioned calls (positioned_ofString s)
  -- the characters read are a string that the unread ones complete to the text
  have hvalid : (String.ofList pre).rawEndPos.IsValid s := by
    refine String.Pos.Raw.isValid_iff_exists_append.mpr
      ⟨String.ofList pre, String.ofList (runCalls (ofString s) calls).2.rest, ?_, rfl⟩
    rw [← String.ofList_append, ← hs, String.ofList_toList]
  exact ⟨⟨pre, hs, hoff, hvalid⟩, herrors, fun _ _ _ h hlx => nextLexeme_takes h hlx,
    fun _ _ _ h => escapedData_takes h⟩

/-- After a name of two characters of two bytes each, a stray character is reported at
character offset 2. -/
example : (runCalls (ofString "éé!") [.name, .nextLexeme]).1 = [.malformed (.strayChar '!') 2] := by
  decide

end PointerLexer

end XmlPointer
