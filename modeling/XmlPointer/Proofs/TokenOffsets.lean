import Mathlib
import XmlPointer.Markup.Event
import XmlPointer.Proofs.Utf8Units

/-! # Where tokens start

Every token is scanned from its offset up to its stop, and the next token starts at that stop.
A token of markup ends after its closing `>`, and character data before the next `<` or at the
end of the input (`Token.scan_spans`). Those bytes are ASCII, so no character of well-formed bytes
runs across the end of a token: every token, and so every event, starts at a character boundary
(`events_offset_boundary`). -/
namespace XmlPointer.Markup

section Search


theorem findClose_spec {q : Option UInt8} {l : List UInt8} {k : Nat} (h : findClose q l = some k) :
    l.drop k = 0x3E :: l.drop (k + 1) := by
  induction l generalizing q k with
  | nil => simp [findClose] at h
  | cons b bs ih =>
    -- every branch but the closing `>` looks on from the next byte
    have later : ∀ q', (findClose q' bs).map (· + 1) = some k →
        (b :: bs).drop k = 0x3E :: (b :: bs).drop (k + 1) := by
      intro q' hk
      obtain ⟨k', hk', rfl⟩ := Option.map_eq_some_iff.mp hk
      simpa using ih hk'
    cases q with
    | none =>
      simp only [findClose] at h
      split_ifs at h with hq hb
      · exact later _ h
      · cases h
        simp [hb]
      · exact later _ h
    | some q =>
      simp only [findClose] at h
      split_ifs at h
      · exact later _ h
      · exact later _ h

theorem findSeq_spec {needle l : List UInt8} {k : Nat} (h : findSeq needle l = some k) :
    ∃ r, l.drop k = needle ++ r := by
  induction l generalizing k with
  | nil => simp [findSeq] at h
  | cons b bs ih =>
    simp only [findSeq] at h
    split_ifs at h with hp
    · cases h
      obtain ⟨r, hr⟩ := List.isPrefixOf_iff_prefix.mp hp
      exact ⟨r, by simpa using hr.symm⟩
    · obtain ⟨k', hk', rfl⟩ := Option.map_eq_some_iff.mp h
      simpa using ih hk'

theorem doctypeClose_spec {start depth : Nat} {quote : Option UInt8} {p : Nat}
    {l after : List UInt8} {close : Nat}
    (h : doctypeClose start depth quote p l = .ok (close, after)) :
    ∃ j, l.drop j = 0x3E :: after ∧ close = p + j := by
  revert h
  fun_induction doctypeClose start depth quote p l with
  | case1 => intro h; cases h
  | case7 => intro h; cases h
  | case8 depth p b bs _ _ _ _ k _ ih =>
    -- a comment inside the declaration is passed over whole
    intro h
    obtain ⟨j, hj, rfl⟩ := ih h
    refine ⟨k + 6 + j + 1, ?_, by omega⟩
    rw [List.drop_succ_cons, ← List.drop_drop, hj]
  | case9 depth p b bs _ _ _ _ hgt =>
    intro h
    cases h
    simp only [Bool.and_eq_true, decide_eq_true_eq] at hgt
    exact ⟨0, by simp [hgt.1], by omega⟩
  -- every other byte is passed over, the search going on one byte later
  | case2 | case3 | case4 | case5 | case6 | case10 =>
    rename_i ih
    intro h
    obtain ⟨j, hj, rfl⟩ := ih h
    exact ⟨j + 1, by simpa using hj, by omega⟩

end Search

def EndsToken (pre after : List UInt8) : Prop :=
  pre.getLast? = some 0x3E ∨ after = [] ∨ after.head? = some 0x3C

/-- A token scanned from `rest`, at offset `pos`, leaving `after`: it starts at `pos` and
stops after the bytes before `after`, which end as a token ends. -/
def Spans (pos : Nat) (rest : List UInt8) (t : Token) (after : List UInt8) : Prop :=
  t.start = pos ∧
    ∃ pre, rest = pre ++ after ∧ t.stop = pos + pre.length ∧ EndsToken pre after

theorem closed_by_gt {rest after : List UInt8} {j : Nat} (h : rest.drop j = 0x3E :: after) :
    ∃ pre, rest = pre ++ after ∧ pre.length = j + 1 ∧ EndsToken pre after := by
  have hj : j < rest.length := by
    have := congrArg List.length h
    simp at this
    omega
  refine ⟨rest.take j ++ [0x3E], ?_, by simp; omega, .inl (by simp)⟩
  rw [List.append_assoc, List.singleton_append, ← h, List.take_append_drop]

theorem closed_by_seq {rest r : List UInt8} (front : List UInt8) {j k : Nat}
    (h : (rest.drop j).drop k = (front ++ [0x3E]) ++ r) :
    (rest.drop j).drop (k + (front.length + 1)) = r ∧
      ∃ pre, rest = pre ++ r ∧ pre.length = j + k + front.length + 1 ∧ EndsToken pre r := by
  refine ⟨by rw [← List.drop_drop, h]; simp, closed_by_gt ?_⟩
  rw [← List.drop_drop, ← List.drop_drop, h]
  simp

section Scanners

variable {pos : Nat} {rest after : List UInt8} {t : Token}

theorem scanText_spans (h : scanText pos rest = .ok (t, after)) : Spans pos rest t after := by
  unfold scanText at h
  cases h
  -- the text runs to the first `<`, or to the end
  have hk : (rest.takeWhile (· != 0x3C)).length = rest.findIdx fun a => !(a != 0x3C) := by
    rw [List.takeWhile_eq_take_findIdx_not, List.length_take,
      Nat.min_eq_left List.findIdx_le_length]
  refine ⟨rfl, _, (List.take_append_drop _ rest).symm,
    by simp [hk, List.findIdx_le_length], .inr ?_⟩
  rw [hk, ← List.dropWhile_eq_drop_findIdx_not]
  have hhead := List.head?_dropWhile_not (· != 0x3C) rest
  cases hd : rest.dropWhile (· != 0x3C) with
  | nil => exact .inl rfl
  | cons a r =>
    rw [hd] at hhead
    simp only [List.head?_cons, bne_eq_false_iff_eq] at hhead
    exact .inr (by rw [hhead]; rfl)

theorem scanEndTag_spans (h : scanEndTag pos rest = .ok (t, after)) : Spans pos rest t after := by
  unfold scanEndTag at h
  dsimp only at h
  split_ifs at h with hn
  split at h
  · rename_i after' hdrop
    cases h
    rw [List.drop_drop, List.drop_drop] at hdrop
    obtain ⟨pre, hrest, hlen, hend⟩ := closed_by_gt hdrop
    exact ⟨rfl, pre, hrest, by simp only [hlen]; omega, hend⟩
  · cases h

theorem scanStartTag_spans (h : scanStartTag pos rest = .ok (t, after)) :
    Spans pos rest t after := by
  unfold scanStartTag at h
  dsimp only at h
  split_ifs at h with hn
  split at h
  · cases h
  · rename_i k hk
    -- whatever the attribute region holds, the token runs up to the closing `>`
    have hshape : t.start = pos ∧ t.stop = pos + 1 + nameLength (rest.drop 1) + k + 1 ∧
        after = ((rest.drop 1).drop (nameLength (rest.drop 1))).drop (k + 1) := by
      split at h
      · split at h
        · cases h
          exact ⟨rfl, rfl, rfl⟩
        · cases h
      · cases h
        exact ⟨rfl, rfl, rfl⟩
    obtain ⟨hstart, hstop, rfl⟩ := hshape
    have hclose := findClose_spec hk
    simp only [List.drop_drop] at hclose ⊢
    obtain ⟨pre, hrest, hlen, hend⟩ := closed_by_gt hclose
    exact ⟨hstart, pre, hrest, by rw [hstop, hlen]; omega, hend⟩

theorem scanInstruction_spans (h : scanInstruction pos rest = .ok (t, after)) :
    Spans pos rest t after := by
  unfold scanInstruction at h
  dsimp only at h
  split at h
  · cases h
  · rename_i k hk
    -- a target named `xml` changes the kind of the token, not where it ends
    have hshape : t.start = pos ∧ t.stop = pos + 2 + k + 2 ∧
        after = (rest.drop 2).drop (k + 2) := by
      split_ifs at h
      all_goals cases h
      all_goals exact ⟨rfl, rfl, rfl⟩
    obtain ⟨hstart, hstop, rfl⟩ := hshape
    obtain ⟨r, hr⟩ := findSeq_spec hk
    obtain ⟨hr', pre, hrest, hlen, hend⟩ := closed_by_seq [0x3F] hr
    have hafter : (rest.drop 2).drop (k + 2) = r := hr'
    refine ⟨hstart, pre, by rw [hafter]; exact hrest, ?_, by rw [hafter]; exact hend⟩
    rw [hstop, hlen, List.length_singleton]
    omega

theorem scanDelimited_spans {opening : Nat} {close : String} {kind : TokenKind} {fault : Fault}
    (front : List UInt8) (hclose : ascii close = front ++ [0x3E])
    (h : scanDelimited opening close kind fault pos rest = .ok (t, after)) :
    Spans pos rest t after := by
  have hlen : close.length = front.length + 1 := by
    have := congrArg List.length hclose
    simpa [ascii, String.length_toList] using this
  unfold scanDelimited at h
  dsimp only at h
  split at h
  · cases h
  · rename_i k hk
    cases h
    obtain ⟨r, hr⟩ := findSeq_spec hk
    rw [hclose] at hr
    obtain ⟨hr', pre, hrest, hlen', hend⟩ := closed_by_seq front hr
    rw [← hlen] at hr'
    refine ⟨rfl, pre, by rw [hr']; exact hrest, by simp only [hlen', hlen]; omega,
      by rw [hr']; exact hend⟩

theorem scanDoctype_spans (h : scanDoctype pos rest = .ok (t, after)) :
    Spans pos rest t after := by
  unfold scanDoctype at h
  dsimp only at h
  split at h
  · cases h
  · rename_i close after' hc
    cases h
    obtain ⟨j, hj, rfl⟩ := doctypeClose_spec hc
    rw [List.drop_drop] at hj
    obtain ⟨pre, hrest, hlen, hend⟩ := closed_by_gt hj
    exact ⟨rfl, pre, hrest, by simp only [hlen]; omega, hend⟩

theorem Token.scan_spans (h : Token.scan pos rest = .ok (t, after)) : Spans pos rest t after := by
  unfold Token.scan at h
  split at h
  · cases h
    exact ⟨rfl, [], rfl, rfl, .inr (.inl rfl)⟩
  · split at h
    · exact scanEndTag_spans h
    · exact scanInstruction_spans h
    · split_ifs at h
      · exact scanDelimited_spans [0x2D, 0x2D] rfl h
      · exact scanDelimited_spans [0x5D, 0x5D] rfl h
      · exact scanDoctype_spans h
    · exact scanStartTag_spans h
  · exact scanText_spans h

end Scanners

section Offsets

open Text.Utf8

theorem EndsToken.wellFormed {pre after : List UInt8} (hw : WellFormed (pre ++ after))
    (he : EndsToken pre after) : WellFormed after := by
  rcases he with hgt | rfl | hlt
  · obtain ⟨front, rfl⟩ := List.getLast?_eq_some_iff.mp hgt
    rw [List.append_assoc, List.singleton_append] at hw
    have hgt' : WellFormed (0x3E :: after) := (hw.split (by simp; rfl)).2
    simpa [show width 0x3E = 1 by decide] using hgt'.drop_width
  · exact .nil
  · exact (hw.split (by rw [hlt]; simp; rfl)).2

theorem tokensFrom_starts : ∀ (fuel pos : Nat) (rest : List UInt8), WellFormed rest →
    ∀ t ∈ (tokensFrom fuel pos rest).1,
      ∃ pre suf, rest = pre ++ suf ∧ t.start = pos + pre.length ∧ WellFormed suf
  | 0, _, _, _ => by simp [tokensFrom]
  | fuel + 1, pos, rest, hw => by
    intro t ht
    unfold tokensFrom at ht
    split at ht
    · simp at ht
    · rename_i t0 after hscan
      obtain ⟨hstart, pre, hrest, hstop, hend⟩ := Token.scan_spans hscan
      have hfirst :
          ∃ pre suf, rest = pre ++ suf ∧ t0.start = pos + pre.length ∧ WellFormed suf :=
        ⟨[], rest, rfl, by simp [hstart], hw⟩
      split at ht
      · rw [List.mem_singleton.mp ht]
        exact hfirst
      · rcases List.mem_cons.mp ht with rfl | ht
        · exact hfirst
        · have hafter : WellFormed after := hend.wellFormed (hrest ▸ hw)
          obtain ⟨pre', suf, hsplit, hs, hsuf⟩ :=
            tokensFrom_starts fuel t0.stop after hafter t ht
          refine ⟨pre ++ pre', suf, by rw [hrest, hsplit, List.append_assoc], ?_, hsuf⟩
          rw [hs, hstop, List.length_append]
          omega

theorem tokenize_starts {input : List UInt8} (hw : WellFormed input) :
    ∀ t ∈ (tokenize input).1,
      ∃ pre suf, input = pre ++ suf ∧ t.start = pre.length ∧ WellFormed suf := by
  intro t ht
  unfold tokenize startOf at ht
  split_ifs at ht with hbom
  · -- a byte-order mark is one character of three bytes
    obtain ⟨r, rfl⟩ := List.isPrefixOf_iff_prefix.mp hbom
    have hr : WellFormed r := by simpa [show width 0xEF = 3 by decide] using hw.drop_width
    obtain ⟨pre, suf, hs, hst, hsuf⟩ := tokensFrom_starts _ 3 _ (by simpa using hr) t ht
    refine ⟨[0xEF, 0xBB, 0xBF] ++ pre, suf, ?_, by simp [hst]; omega, hsuf⟩
    have hdrop : (3, ([0xEF, 0xBB, 0xBF] ++ r).drop 3).2 = r := rfl
    rw [hdrop] at hs
    rw [hs, List.append_assoc]
  · obtain ⟨pre, suf, hs, hst, hsuf⟩ := tokensFrom_starts _ 0 input hw t ht
    exact ⟨pre, suf, hs, by simpa using hst, hsuf⟩

theorem eventsOf_offsets (strict : Bool) : ∀ (ts : List Token) {o : Nat} {ev : Event},
    (o, ev) ∈ (eventsOf strict ts).1 → ∃ t ∈ ts, t.start = o ∧ t.event strict = .ok (some ev)
  | [], _, _, h => by simp [eventsOf] at h
  | t :: ts, o, ev, h => by
    unfold eventsOf at h
    split at h
    · simp at h
    · obtain ⟨t', ht', ho⟩ := eventsOf_offsets strict ts h
      exact ⟨t', List.mem_cons_of_mem t ht', ho⟩
    · rename_i ev' hev
      rcases List.mem_cons.mp h with h | h
      · obtain ⟨rfl, rfl⟩ := Prod.mk.inj h
        exact ⟨t, List.mem_cons_self, rfl, hev⟩
      · obtain ⟨t', ht', ho⟩ := eventsOf_offsets strict ts h
        exact ⟨t', List.mem_cons_of_mem t ht', ho⟩

theorem events_offset_boundary {strict : Bool} {input : List UInt8} {o : Nat} {ev : Event}
    (hw : WellFormed input) (he : (o, ev) ∈ (events strict input).1) :
    ∃ pre suf, input = pre ++ suf ∧ o = pre.length ∧ WellFormed pre ∧ WellFormed suf := by
  obtain ⟨t, ht, rfl, -⟩ := eventsOf_offsets strict _ he
  obtain ⟨pre, suf, hs, hst, hsuf⟩ := tokenize_starts hw t ht
  rw [hs] at hw
  exact ⟨pre, suf, hs, hst, (hw.split hsuf.head_lead).1, hsuf⟩

end Offsets

end XmlPointer.Markup