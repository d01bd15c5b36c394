import Mathlib
import XmlPointer.Proofs.TokenOffsets

/-! # Tokens tile the input

Asking the tokenizer for one token after another, from the start of the input until it gives
the end token or a fault, reads every byte once. Each token but the end token takes at least one
byte and starts where the one before it stopped, the first one after a byte-order mark if there
is one, and the end token stands at the end of the input (`Tiles`). So the run stops by itself,
after at most one call more than there are bytes (`tokenize_tiles_input`). -/
namespace XmlPointer.Markup

def Moves (pos : Nat) (t : Token) : Prop :=
  t.kind ≠ .eof ∧ pos < t.stop

section Scanners

variable {pos : Nat} {rest after : List UInt8} {t : Token}

theorem scanStartTag_moves (h : scanStartTag pos rest = .ok (t, after)) : Moves pos t := by
  unfold scanStartTag at h
  dsimp only at h
  split_ifs at h with hn
  split at h
  · cases h
  · -- the tag runs to its `>` whether it is an empty-element tag or not
    split at h
    · split at h
      · cases h
        refine ⟨?_, by dsimp only; omega⟩
        dsimp only
        split <;> decide
      · cases h
    · cases h
      refine ⟨?_, by dsimp only; omega⟩
      dsimp only
      split <;> decide

theorem scanEndTag_moves (h : scanEndTag pos rest = .ok (t, after)) : Moves pos t := by
  unfold scanEndTag at h
  dsimp only at h
  split_ifs at h
  split at h
  · cases h
    exact ⟨by simp, by dsimp only; omega⟩
  · cases h

theorem scanInstruction_moves (h : scanInstruction pos rest = .ok (t, after)) : Moves pos t := by
  unfold scanInstruction at h
  dsimp only at h
  split at h
  · cases h
  · split_ifs at h
    all_goals cases h
    all_goals exact ⟨by simp, by dsimp only; omega⟩

theorem scanDelimited_moves {opening : Nat} {close : String} {kind : TokenKind} {fault : Fault}
    (h : scanDelimited opening close kind fault pos rest = .ok (t, after))
    (hkind : kind ≠ .eof) (hclose : 0 < close.length) : Moves pos t := by
  unfold scanDelimited at h
  dsimp only at h
  split at h
  · cases h
  · cases h
    exact ⟨hkind, by dsimp only; omega⟩

theorem scanDoctype_moves (h : scanDoctype pos rest = .ok (t, after)) : Moves pos t := by
  unfold scanDoctype at h
  dsimp only at h
  split at h
  · cases h
  · rename_i close after' hc
    cases h
    obtain ⟨j, -, rfl⟩ := doctypeClose_spec hc
    exact ⟨by simp, by dsimp only; omega⟩

theorem scanText_moves {b : UInt8} {bs : List UInt8} (hb : b ≠ 0x3C)
    (h : scanText pos (b :: bs) = .ok (t, after)) : Moves pos t := by
  unfold scanText at h
  cases h
  exact ⟨by simp, by simp [hb]⟩

theorem Token.scan_moves (hne : rest ≠ []) (h : Token.scan pos rest = .ok (t, after)) :
    Moves pos t := by
  unfold Token.scan at h
  split at h
  · exact absurd rfl hne
  · split at h
    · exact scanEndTag_moves h
    · exact scanInstruction_moves h
    · split_ifs at h
      · exact scanDelimited_moves h (by decide) (by decide)
      · exact scanDelimited_moves h (by decide) (by decide)
      · exact scanDoctype_moves h
    · exact scanStartTag_moves h
  · rename_i hlt
    obtain ⟨b, bs, rfl⟩ := List.exists_cons_of_ne_nil hne
    exact scanText_moves (fun hb => hlt bs (hb ▸ rfl)) h

theorem Token.scan_step (h : Token.scan pos rest = .ok (t, after)) :
    (rest = [] ∧ t.kind = .eof ∧ t.start = pos ∧ t.stop = pos) ∨
      (Moves pos t ∧ t.start = pos ∧ t.stop ≤ pos + rest.length ∧
        after = rest.drop (t.stop - pos)) := by
  obtain ⟨hstart, pre, hrest, hstop, -⟩ := Token.scan_spans h
  cases rest with
  | nil =>
    simp only [Token.scan, Except.ok.injEq, Prod.mk.injEq] at h
    obtain ⟨rfl, -⟩ := h
    exact .inl ⟨rfl, rfl, rfl, rfl⟩
  | cons b bs =>
    refine .inr ⟨Token.scan_moves (List.cons_ne_nil b bs) h, hstart, ?_, ?_⟩
    · rw [hstop, hrest, List.length_append]
      omega
    · rw [hrest, hstop, Nat.add_sub_cancel_left, List.drop_left]

theorem Token.scan_error_ne_nil {e : SyntaxError} (h : Token.scan pos rest = .error e) :
    rest ≠ [] := by
  rintro rfl
  cases h

end Scanners

/-- `Tiles input pos r`: the answers `r` of the calls of a run over `input` from offset `pos`.
Each call reads the input from where the token before it stopped, the first from `pos`; each
token takes at least one byte; the run ends with a fault before the end of the input, or with
the end token at its end. -/
inductive Tiles (input : List UInt8) : Nat → List Token × Option SyntaxError → Prop
  | fault {pos : Nat} {e : SyntaxError} : pos < input.length →
      Token.scan pos (input.drop pos) = .error e → Tiles input pos ([], some e)
  | eof {t : Token} : t.kind = .eof → t.start = input.length → t.stop = input.length →
      Tiles input input.length ([t], none)
  | token {pos : Nat} {t : Token} {ts : List Token} {err : Option SyntaxError} :
      Token.scan pos (input.drop pos) = .ok (t, input.drop t.stop) → Moves pos t →
      t.start = pos → Tiles input t.stop (ts, err) → Tiles input pos (t :: ts, err)

def callCount (r : List Token × Option SyntaxError) : Nat :=
  r.1.length + if r.2.isSome then 1 else 0

theorem Tiles.callCount_le {input : List UInt8} {pos : Nat}
    {r : List Token × Option SyntaxError} (h : Tiles input pos r) :
    callCount r + pos ≤ input.length + 1 := by
  induction h with
  | fault hlt => simp [callCount]; omega
  | eof => simp [callCount]; omega
  | token _ hm _ _ ih =>
    have hlt := hm.2
    simp only [callCount, List.length_cons] at ih ⊢
    omega

theorem tokensFrom_tiles (input : List UInt8) : ∀ (fuel pos : Nat), pos ≤ input.length →
    input.length - pos < fuel → Tiles input pos (tokensFrom fuel pos (input.drop pos))
  | 0, _, _, h => absurd h (Nat.not_lt_zero _)
  | fuel + 1, pos, hpos, hfuel => by
    unfold tokensFrom
    split
    · rename_i e hscan
      have hne := Token.scan_error_ne_nil hscan
      exact .fault (by simpa [Nat.pos_iff_ne_zero] using hne) hscan
    · rename_i t after hscan
      rcases Token.scan_step hscan with ⟨hnil, hk, hs, hst⟩ | ⟨hm, hs, hstop, rfl⟩
      · -- nothing is left: the call gave the end token at the end
        have hend : pos = input.length := by simp at hnil; omega
        subst hend
        rw [if_pos hk]
        exact .eof hk hs hst
      · rw [if_neg hm.1]
        have hlt := hm.2
        simp only [List.length_drop] at hstop
        have hafter : (input.drop pos).drop (t.stop - pos) = input.drop t.stop := by
          rw [List.drop_drop]
          congr 1
          omega
        rw [hafter] at hscan ⊢
        -- the token took a byte, so the call it spent is not missed
        exact .token hscan hm hs (tokensFrom_tiles input fuel t.stop (by omega) (by omega))

theorem startOf_eq (input : List UInt8) :
    startOf input = ((if [0xEF, 0xBB, 0xBF].isPrefixOf input then 3 else 0),
      input.drop (if [0xEF, 0xBB, 0xBF].isPrefixOf input then 3 else 0)) := by
  unfold startOf
  split_ifs <;> rfl

theorem startOf_le (input : List UInt8) :
    (if [0xEF, 0xBB, 0xBF].isPrefixOf input then 3 else 0) ≤ input.length := by
  split_ifs with hbom
  · obtain ⟨r, rfl⟩ := List.isPrefixOf_iff_prefix.mp hbom
    simp
  · exact Nat.zero_le _

/-- Tokenizing reads the input whole and once: the tokens start after a byte-order mark, or at
the start; each call reads the input from where the last token stopped, and each token but the
end token takes at least one byte; the run ends with a fault before the end of the input or with
the end token at its end, after at most one call more than there are bytes. -/
theorem tokenize_tiles_input (input : List UInt8) :
    Tiles input (if [0xEF, 0xBB, 0xBF].isPrefixOf input then 3 else 0) (tokenize input) ∧
      callCount (tokenize input) ≤ input.length + 1 := by
  have hle := startOf_le input
  have htiles : Tiles input (if [0xEF, 0xBB, 0xBF].isPrefixOf input then 3 else 0)
      (tokenize input) := by
    unfold tokenize
    rw [startOf_eq]
    refine tokensFrom_tiles input _ _ hle ?_
    simp only [List.length_drop]
    omega
  refine ⟨htiles, ?_⟩
  have := htiles.callCount_le
  omega

/-- A byte-order mark is counted in the offsets but read by no token. -/
example : (tokenize ([0xEF, 0xBB, 0xBF] ++ ascii "<a/>x")).1.map (fun t => (t.start, t.stop)) =
    [(3, 7), (7, 8), (8, 8)] := by decide

end XmlPointer.Markup
