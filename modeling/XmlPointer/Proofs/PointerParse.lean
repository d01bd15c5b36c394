import Mathlib
import XmlPointer.Proofs.PointerGrammar

/-! # What `Pointer.parse` accepts

A text parses to a shorthand pointer exactly when it is an NCName, and to a scheme-based
pointer exactly when it is a non-empty sequence of scheme invocations in the sense of
`SchemeParts`, whose parts are then the parts of the pointer. Every other text is refused as
malformed: no reader of the parser fails in any other way. -/

namespace XmlPointer

def ReportsMalformed {α : Type} (x : Except PointerError α) : Prop :=
  ∀ e, x = .error e → e.isMalformed = true

namespace ReportsMalformed

variable {α β : Type}

theorem ok (a : α) : ReportsMalformed (.ok a : Except PointerError α) := by
  intro e h
  cases h

theorem malformed (f : PointerFault) (at_ : Nat) :
    ReportsMalformed (.error (.malformed f at_) : Except PointerError α) := by
  rintro e ⟨⟩
  rfl

theorem map {x : Except PointerError α} (h : ReportsMalformed x) (f : α → β) :
    ReportsMalformed (x.map f) := by
  cases x with
  | error e => intro e' he; cases he; exact h e rfl
  | ok a => exact ok _

theorem bind {x : Except PointerError α} {f : α → Except PointerError β} (hx : ReportsMalformed x)
    (hf : ∀ a, ReportsMalformed (f a)) : ReportsMalformed (x >>= f) := by
  cases x with
  | error e => intro e' he; cases he; exact hx e rfl
  | ok a => exact hf a

end ReportsMalformed

namespace PointerLexer

theorem malformedAt_reports {α : Type} (f : PointerFault) (at_ : Nat) (l : PointerLexer) :
    ReportsMalformed (malformedAt f at_ l : Read α).1 :=
  .malformed f at_

theorem numberFrom_reports (start : Nat) (cs : List Char) :
    ∀ value at_, ReportsMalformed (numberFrom start value at_ cs).1 := by
  induction cs with
  | nil => intro value at_; exact .ok _
  | cons c cs ih =>
    intro value at_
    unfold numberFrom
    dsimp only
    split
    · split
      · exact malformedAt_reports _ _ _
      · exact ih _ _
    · exact .ok _

theorem nameLexeme_reports (l : PointerLexer) : ReportsMalformed (nameLexeme l).1 := by
  unfold nameLexeme
  split
  · exact malformedAt_reports _ _ _
  · dsimp only
    split
    · split
      · exact .ok _
      · exact malformedAt_reports _ _ _
    · exact .ok _

theorem nextLexeme_reports (l : PointerLexer) : ReportsMalformed (nextLexeme l).1 := by
  unfold nextLexeme
  split
  · exact .ok _
  · split
    · exact .ok _
    · split
      · exact .ok _
      · split
        · exact (numberFrom_reports _ _ _ _).map _
        · split
          · exact nameLexeme_reports l
          · exact malformedAt_reports _ _ _

theorem escapedFrom_reports (depth at_ : Nat) (t : List Char) :
    ReportsMalformed (escapedFrom depth at_ t).1 := by
  fun_induction escapedFrom depth at_ t with
  | case1 | case2 | case4 => exact malformedAt_reports _ _ _
  | case6 => exact .ok _
  | case3 _ _ _ _ _ _ _ hr ih | case5 _ _ _ _ _ hr ih | case7 _ _ _ _ _ hr ih
  | case8 _ _ _ _ _ _ _ _ _ _ _ hr ih =>
    rw [hr] at ih
    exact ih.map _

theorem escapedData_reports (l : PointerLexer) : ReportsMalformed (escapedData l).1 :=
  (escapedFrom_reports _ _ _).map _

end PointerLexer

namespace PointerParser

open PointerLexer

def FailsMalformed {α : Type} (p : PointerParser α) : Prop :=
  ∀ l, ReportsMalformed (p.run l)

namespace FailsMalformed

variable {α β : Type}

theorem pure (a : α) : FailsMalformed (Pure.pure a : PointerParser α) :=
  fun _ => .ok _

theorem get : FailsMalformed (MonadState.get : PointerParser PointerLexer) :=
  fun _ => .ok _

theorem modify (f : PointerLexer → PointerLexer) : FailsMalformed (modify f : PointerParser Unit) :=
  fun _ => .ok _

theorem bind {x : PointerParser α} {f : α → PointerParser β} (hx : FailsMalformed x)
    (hf : ∀ a, FailsMalformed (f a)) : FailsMalformed (x >>= f) := by
  intro l
  rw [StateT.run_bind]
  exact (hx l).bind fun p => hf p.1 p.2

theorem map {x : PointerParser α} (hx : FailsMalformed x) (f : α → β) :
    FailsMalformed (f <$> x) := by
  intro l
  rw [StateT.run_map]
  exact (hx l).bind fun p => .ok _

theorem lift {f : PointerLexer → PointerLexer.Read α} (hf : ∀ l, ReportsMalformed (f l).1) :
    FailsMalformed (PointerParser.lift f) := by
  intro l e he
  rcases hfl : f l with ⟨e' | a, l'⟩
  · have : e' = e := by simpa [PointerParser.lift, StateT.run, hfl] using he
    exact hf l e (by rw [hfl, this])
  · simp [PointerParser.lift, StateT.run, hfl] at he

theorem failHere (f : PointerFault) : FailsMalformed (PointerParser.failHere f : PointerParser α) :=
  fun _ => .malformed _ _

theorem unexpected (e : String) (lx : Lexeme) :
    FailsMalformed (PointerParser.unexpected e lx : PointerParser α) :=
  failHere _

end FailsMalformed

theorem next_fails : FailsMalformed next :=
  .lift nextLexeme_reports

theorem escapedData_fails : FailsMalformed escapedData :=
  .lift escapedData_reports

theorem skipBlanks_fails : FailsMalformed skipBlanks :=
  .modify _

theorem elementPositions_fails (fuel : Nat) (lx : Lexeme) : FailsMalformed (elementPositions fuel lx) := by
  induction fuel generalizing lx with
  | zero => exact .failHere _
  | succ fuel ih =>
    unfold elementPositions
    split
    · exact .pure _
    · refine .bind .get fun l => .bind next_fails fun lx' => ?_
      split
      · exact fun _ => .malformed _ _
      · exact .bind next_fails fun lx'' => .bind (ih lx'') fun _ => .pure _
      · exact .unexpected _ _
    · exact .unexpected _ _

theorem elementPayload_fails : FailsMalformed elementPayload := by
  unfold elementPayload
  refine .bind .get fun l => .bind next_fails fun lx => ?_
  split
  · exact .pure _
  · exact .bind next_fails fun lx' => .bind (elementPositions_fails _ _) fun _ => .pure _
  · exact .bind (elementPositions_fails _ _) fun _ => .pure _
  · exact .unexpected _ _

theorem xmlnsPayload_fails : FailsMalformed xmlnsPayload := by
  -- the URI after `=`, read once `=` is found or its failure is raised
  have uri : ∀ pre, FailsMalformed (do skipBlanks; let uri ← escapedData; pure (Part.xmlns pre uri)) :=
    fun _ => .bind skipBlanks_fails fun _ => .bind escapedData_fails fun _ => .pure _
  unfold xmlnsPayload
  refine .bind skipBlanks_fails fun _ => .bind next_fails fun lx => ?_
  dsimp only
  split
  -- the prefix or the failure to read one, and the rest of the payload either way
  all_goals
    refine .bind (by first | exact .pure _ | exact .unexpected _ _) fun pre => ?_
    refine .bind skipBlanks_fails fun _ => .bind next_fails fun lx' => ?_
    split
    · exact uri pre
    · exact .bind (.unexpected _ _) fun _ => uri pre

theorem expressionPayload_fails : FailsMalformed expressionPayload :=
  .bind escapedData_fails fun _ => .pure _

theorem payload_fails (s : Scheme) : FailsMalformed (payload s) := by
  cases s with
  | element => exact elementPayload_fails
  | xmlns => exact xmlnsPayload_fails.map _
  | xpath1 | xpointer => exact expressionPayload_fails.map _
  | unknown => exact .bind (escapedData_fails.map _) fun _ => .pure _

theorem schemeParts_fails (fuel : Nat) (parts : List Part) (lx : Lexeme) :
    FailsMalformed (schemeParts fuel parts lx) := by
  induction fuel generalizing parts lx with
  | zero => exact .pure _
  | succ fuel ih =>
    unfold schemeParts
    split
    · exact .pure _
    -- the payload and the next invocations, after the scheme or the failure to name one
    have cont : ∀ scheme, FailsMalformed (do
        modify fun l => l.nextChar.2
        let part ← payload scheme
        skipBlanks
        schemeParts fuel (parts ++ part.toList) (← next)) := fun scheme =>
      .bind (.modify _) fun _ => .bind (payload_fails scheme) fun _ =>
        .bind skipBlanks_fails fun _ => .bind next_fails fun _ => ih _ _
    dsimp only
    split
    · exact .bind (.pure _) cont
    · exact .bind (.pure _) cont
    · exact .bind (.failHere _) cont

end PointerParser

theorem Pointer.parse_reports_malformed (text : String) : ReportsMalformed (Pointer.parse text) := by
  unfold Pointer.parse
  refine .bind (PointerParser.next_fails _) fun ⟨first, l⟩ => ?_
  dsimp only
  split
  · refine .bind (PointerParser.next_fails _) fun ⟨trailing, _⟩ => ?_
    dsimp only
    split
    · exact .ok _
    · exact .malformed _ _
  · exact .malformed _ _
  · exact .bind (PointerParser.schemeParts_fails _ _ _ _) fun _ => .ok _

theorem SchemeParts.spells_schemeName {parts out : List Part} {t : List Char}
    (h : SchemeParts parts t out) (ht : t ≠ []) :
    ∃ lx r, Spells lx t r ∧ lx ≠ .eof ∧ ∀ n, lx ≠ .name n false := by
  cases h with
  | done => exact absurd rfl ht
  | step hname =>
    cases hname with
    | plain hN => exact ⟨_, _, Spells.schemeName _ hN, by simp, by simp⟩
    | prefixed hP hN => exact ⟨_, _, Spells.qualifiedSchemeName _ hP hN, by simp, by simp⟩

open PointerParser in
/-- What a successful parse read: a plain name and then the end, or a first lexeme that is
neither the end nor a plain name and then the scheme invocations. -/
theorem Pointer.parse_eq_ok_cases {text : String} {p : Pointer} (h : Pointer.parse text = .ok p) :
    ∃ first l, next.run (PointerLexer.ofString text) = .ok (first, l) ∧
      ((∃ n l₂, first = .name n false ∧ next.run l = .ok (.eof, l₂) ∧ p = .shorthand n) ∨
        (first ≠ .eof ∧ (∀ n, first ≠ .name n false) ∧
          ∃ parts l₂, (schemeParts (text.length + 1) [] first).run l = .ok (parts, l₂) ∧
            p = .schemeBased parts text)) := by
  unfold Pointer.parse at h
  dsimp only at h
  rcases hf : next.run (PointerLexer.ofString text) with e | ⟨first, l⟩
  · simp [hf] at h
  rw [hf, ok_bind] at h
  dsimp only at h
  refine ⟨first, l, rfl, ?_⟩
  split at h
  · rename_i n
    rcases hg : next.run l with e | ⟨trailing, l₂⟩
    · simp [hg] at h
    rw [hg, ok_bind] at h
    dsimp only at h
    split at h
    · -- the name is followed by the end
      rename_i htrailing
      subst htrailing
      cases h
      exact .inl ⟨n, l₂, rfl, rfl, rfl⟩
    · cases h
  · cases h
  · rename_i hname heof
    rcases hr : (schemeParts (text.length + 1) [] first).run l with e | ⟨parts, l₂⟩
    · simp [hr] at h
    rw [hr, ok_bind] at h
    cases h
    exact .inr ⟨heof, hname, parts, l₂, rfl, rfl⟩

open PointerParser in
theorem Pointer.parse_eq_shorthand_iff (text n : String) :
    Pointer.parse text = .ok (.shorthand n) ↔ n = text ∧ Text.isNCName text = true := by
  constructor
  · intro h
    obtain ⟨first, l, hf, ⟨n', l₂, rfl, hg, hp⟩ | ⟨-, -, parts, l₂, -, hp⟩⟩ :=
      Pointer.parse_eq_ok_cases h
    · -- the name is all the text
      cases hp
      obtain ⟨hrest, hN, -, -⟩ := Spells.name_inv (next_sound hf)
      obtain ⟨hl, -⟩ := Spells.eof_inv (next_sound hg)
      rw [hl, List.append_nil] at hrest
      exact ⟨String.toList_inj.mp hrest.symm, by rw [← String.toList_inj.mp hrest.symm]; exact hN⟩
    · cases hp
  · rintro ⟨rfl, hN⟩
    have hs : Spells (.name n false) n.toList [] := by
      simpa using Spells.name (r := []) hN (by simp)
    obtain ⟨off, hn⟩ := next_complete hs 0
    obtain ⟨off', he⟩ := next_complete Spells.eof off
    simp only [Pointer.parse, PointerLexer.ofString, hn, ok_bind, he]
    rfl

open PointerParser in
theorem Pointer.parse_eq_schemeBased_iff (text : String) (ps : List Part) (text' : String) :
    Pointer.parse text = .ok (.schemeBased ps text') ↔
      text' = text ∧ text ≠ "" ∧ SchemeParts [] text.toList ps := by
  constructor
  · intro h
    obtain ⟨first, l, hf, ⟨n, l₂, -, -, hp⟩ | ⟨heof, -, parts, l₂, hr, hp⟩⟩ :=
      Pointer.parse_eq_ok_cases h
    · cases hp
    · cases hp
      have hs := next_sound hf
      refine ⟨rfl, ?_, schemeParts_sound _ _ _ _ _ _ _ hr hs ?_⟩
      · -- the empty text has only the end as its lexeme
        rintro rfl
        exact heof ((Spells.nil_inv hs).1)
      · have := hs.length_le
        simp only [PointerLexer.ofString, String.length_toList] at this
        omega
  · rintro ⟨htext, hne, hps⟩
    rw [htext]
    have ht : text.toList ≠ [] := by simpa using hne
    obtain ⟨lx, r, hlx, heof, hname⟩ := hps.spells_schemeName ht
    obtain ⟨off, hn⟩ := next_complete hlx 0
    obtain ⟨off', hr⟩ := schemeParts_complete hps (text.length + 1)
      (by simp [String.length_toList]) lx r hlx off
    unfold Pointer.parse
    -- by `heof` and `hname`, the first lexeme takes the last branch
    simp only [PointerLexer.ofString, hn, ok_bind]
    simp only [hr, ok_bind]
    rfl

/-- What a pointer text parses to: a shorthand pointer exactly when the text is an NCName, a
scheme-based pointer exactly when the text is a non-empty sequence of scheme invocations, with
the parts they give and the text itself; any other text fails as malformed. -/
theorem Pointer.parse_eq_iff_grammar (text : String) :
    (∀ n, Pointer.parse text = .ok (.shorthand n) ↔ n = text ∧ Text.isNCName text = true) ∧
    (∀ ps text', Pointer.parse text = .ok (.schemeBased ps text') ↔
      text' = text ∧ text ≠ "" ∧ SchemeParts [] text.toList ps) ∧
    (∀ e, Pointer.parse text = .error e → e.isMalformed = true) :=
  ⟨Pointer.parse_eq_shorthand_iff text, Pointer.parse_eq_schemeBased_iff text,
    Pointer.parse_reports_malformed text⟩

end XmlPointer
