import Mathlib
import XmlPointer.Proofs.PointerParse

/-! # Numerals in pointer text

A run of decimal digits is read as one number lexeme whose value is the numeral's decimal value,
whatever its length and however many leading zeros it has, as long as that value is at most
`2 ^ 31 - 1`; past that the lexeme fails at the numeral's first character, whichever digit takes
the running value over the limit, so no value is ever wrapped or cut. The child positions of
`element()` are the numerals after each `/`, and a zero value is refused there, so
`element(X/d₁/…/dₖ)` parses to the values of the `dᵢ` exactly when each is from 1 to
`2 ^ 31 - 1`, and fails otherwise (`numerals_read_exactly`). -/
namespace XmlPointer

def numeralValue (ds : List Char) : Nat :=
  Nat.ofDigits 10 (ds.map fun c => c.toNat - '0'.toNat).reverse

def childPositions (dss : List (List Char)) : List Char :=
  (dss.map ('/' :: ·)).flatten

def InRange (dss : List (List Char)) : Prop :=
  ∀ ds ∈ dss, 1 ≤ numeralValue ds ∧ numeralValue ds ≤ 2 ^ 31 - 1

instance (dss : List (List Char)) : Decidable (InRange dss) :=
  inferInstanceAs (Decidable (∀ ds ∈ dss, _))

def Numerals (dss : List (List Char)) : Prop :=
  ∀ ds ∈ dss, ds ≠ [] ∧ ∀ d ∈ ds, d.isDigit = true

def elementText (name : Option String) (dss : List (List Char)) : String :=
  String.ofList ("element(".toList ++ ((name.getD "").toList ++ (childPositions dss ++ [')'])))

namespace PointerLexer

theorem foldl_digits_eq (ds : List Char) (acc : Nat) :
    ds.foldl (fun v c => v * 10 + (c.toNat - '0'.toNat)) acc = acc * 10 ^ ds.length + numeralValue ds := by
  induction ds generalizing acc with
  | nil => simp [numeralValue]
  | cons d ds ih =>
    rw [List.foldl_cons, ih]
    simp only [numeralValue, List.map_cons, List.reverse_cons, Nat.ofDigits_append, List.length_reverse,
      List.length_map, Nat.ofDigits_singleton, List.length_cons, pow_succ]
    ring

theorem digitsValue_eq_numeralValue (ds : List Char) : digitsValue ds = numeralValue ds := by
  simpa [digitsValue] using foldl_digits_eq ds 0

theorem numberFrom_overflow (start : Nat) {ds : List Char} (hds : ∀ d ∈ ds, d.isDigit = true)
    (r : List Char) : ∀ value at_, value ≤ numberLimit →
      numberLimit < ds.foldl (fun v c => v * 10 + (c.toNat - '0'.toNat)) value →
      (numberFrom start value at_ (ds ++ r)).1 = .error (.malformed .numberOutOfRange start) := by
  induction ds with
  | nil => intro value at_ hv hgt; simp at hgt; omega
  | cons d ds ih =>
    intro value at_ hv hgt
    have hd := hds d (List.mem_cons_self ..)
    rw [List.foldl_cons] at hgt
    simp only [List.cons_append, numberFrom, hd, if_true]
    by_cases hover : value * 10 + (d.toNat - '0'.toNat) > numberLimit
    · rw [if_pos hover]; rfl
    · rw [if_neg hover]
      exact ih (fun x hx => hds x (List.mem_cons_of_mem _ hx)) _ _ (by omega) hgt

theorem numberFrom_numeral (start : Nat) {ds r : List Char} (hds : ∀ d ∈ ds, d.isDigit = true)
    (hr : ∀ c ∈ r.head?, c.isDigit = false) (at_ : Nat) :
    (numberFrom start 0 at_ (ds ++ r)).1 =
      if numeralValue ds ≤ numberLimit then .ok (numeralValue ds)
      else .error (.malformed .numberOutOfRange start) := by
  have hfold := foldl_digits_eq ds 0
  simp only [Nat.zero_mul, Nat.zero_add] at hfold
  split
  · rename_i hle
    rw [numberFrom_digits start hds hr 0 at_ (by omega), hfold]
  · exact numberFrom_overflow start hds r 0 at_ (Nat.zero_le _) (by omega)

theorem numberLimit_eq_pow : numberLimit = 2 ^ 31 - 1 := rfl

theorem nextLexeme_numeral {l : PointerLexer} {ds r : List Char} (hne : ds ≠ [])
    (hds : ∀ d ∈ ds, d.isDigit = true) (hr : ∀ c ∈ r.head?, c.isDigit = false)
    (hl : l.rest = ds ++ r) :
    (nextLexeme l).1 =
      if numeralValue ds ≤ 2 ^ 31 - 1 then .ok (.number (numeralValue ds))
      else .error (.malformed .numberOutOfRange l.offset) := by
  obtain ⟨rest, off⟩ := l
  obtain ⟨d, ds', rfl⟩ := List.exists_cons_of_ne_nil hne
  have hd := hds d (List.mem_cons_self ..)
  simp only at hl
  subst hl
  have hnum := numberFrom_numeral off hds hr off
  simp only [List.cons_append, nextLexeme, punctuation_eq_none (by decide) hd,
    Text.isXmlBlank_eq_false (by decide) hd, hd, Bool.false_eq_true, if_false, if_true]
  rw [← List.cons_append, hnum, ← numberLimit_eq_pow]
  split <;> rfl

end PointerLexer

namespace PointerParser

open PointerLexer

theorem next_run_error {l : PointerLexer} {e : PointerError} (h : (nextLexeme l).1 = .error e) :
    next.run l = .error e := by
  simp only [next, lift, StateT.run]
  rcases hl : nextLexeme l with ⟨_ | a, l'⟩ <;> simp_all

theorem elementPositions_numeral {ds r : List Char} (hne : ds ≠ []) (hds : ∀ d ∈ ds, d.isDigit = true)
    (hr : ∀ c ∈ r.head?, c.isDigit = false) (fuel off : Nat) :
    (elementPositions (fuel + 1) .slash).run ⟨ds ++ r, off⟩ =
      if numeralValue ds = 0 then .error (.malformed .zeroPosition off)
      else if numeralValue ds ≤ 2 ^ 31 - 1 then
        ((do elementPositions fuel (← next)).run ⟨r, off + ds.length⟩).map
          fun (p : List Nat × PointerLexer) => (numeralValue ds :: p.1, p.2)
      else .error (.malformed .numberOutOfRange off) := by
  have hlex := nextLexeme_numeral (l := ⟨ds ++ r, off⟩) hne hds hr rfl
  by_cases hle : numeralValue ds ≤ 2 ^ 31 - 1
  · have hspell : Spells (.number (numeralValue ds)) (ds ++ r) r :=
      digitsValue_eq_numeralValue ds ▸ .number hne hds (by rw [digitsValue_eq_numeralValue]; exact hle) hr
    have hnext : next.run ⟨ds ++ r, off⟩ = .ok (.number (numeralValue ds), ⟨r, off + ds.length⟩) := by
      refine next_run ?_
      rw [nextLexeme_complete hspell off]
      simp
    simp only [elementPositions, StateT.run_bind, StateT.run_get, pure_bind, hnext, ok_bind, if_pos hle]
    rcases numeralValue ds with _ | k
    · rfl
    · simp only [Nat.add_one_ne_zero, if_false, StateT.run_bind, StateT.run_pure]
      rcases StateT.run next ⟨r, off + ds.length⟩ with e | ⟨lx, l⟩
      · rfl
      · simp only [ok_bind]
        rcases StateT.run (elementPositions fuel lx) l with e | ⟨ns, l'⟩ <;> rfl
  · have hnext := next_run_error (by rw [hlex, if_neg hle])
    have hpos : numeralValue ds ≠ 0 := by omega
    simp only [elementPositions, StateT.run_bind, StateT.run_get, pure_bind, hnext, if_neg hle,
      if_neg hpos]
    rfl

theorem childPositions_cons (ds : List Char) (dss : List (List Char)) :
    childPositions (ds :: dss) = '/' :: (ds ++ childPositions dss) := by
  simp [childPositions]

theorem childPositions_next (dss : List (List Char)) (rest : List Char) :
    ∃ c cs, childPositions dss ++ ')' :: rest = c :: cs ∧ (c = '/' ∨ c = ')') := by
  cases dss with
  | nil => exact ⟨')', rest, rfl, .inr rfl⟩
  | cons ds dss => exact ⟨'/', _, by rw [childPositions_cons, List.cons_append], .inl rfl⟩

theorem childPositions_head (dss : List (List Char)) (rest : List Char) :
    ∀ c ∈ (childPositions dss ++ ')' :: rest).head?, c.isDigit = false := by
  obtain ⟨c, cs, hcs, hc⟩ := childPositions_next dss rest
  rw [hcs]
  rcases hc with rfl | rfl <;> simp

theorem toOption_map_cons {α : Type} (v : Nat) (x : Except PointerError (List Nat × α)) :
    (x.map fun p => (v :: p.1, p.2)).toOption.map Prod.fst = (x.toOption.map Prod.fst).map (v :: ·) := by
  cases x <;> rfl

/-- The child positions of an `element()` payload and its `)` are read exactly when every
numeral is valued from 1 to `2 ^ 31 - 1`, and then to those values. -/
theorem elementPositions_numerals {dss : List (List Char)} (hdss : Numerals dss) (rest : List Char) :
    ∀ fuel, dss.length < fuel → ∀ off,
      ((do elementPositions fuel (← next)).run ⟨childPositions dss ++ ')' :: rest, off⟩).toOption.map
          Prod.fst = if InRange dss then some (dss.map numeralValue) else none := by
  induction dss with
  | nil =>
    intro fuel hfuel off
    obtain ⟨f, rfl⟩ : ∃ f, fuel = f + 1 := ⟨fuel - 1, by simp at hfuel; omega⟩
    have hclose : next.run ⟨childPositions [] ++ ')' :: rest, off⟩ = .ok (.rightParen, ⟨rest, off + 1⟩) :=
      next_run rfl
    simp only [StateT.run_bind, hclose, ok_bind, elementPositions]
    rw [if_pos (by simp [InRange])]
    rfl
  | cons ds dss ih =>
    intro fuel hfuel off
    obtain ⟨f, rfl⟩ : ∃ f, fuel = f + 1 := ⟨fuel - 1, by simp at hfuel; omega⟩
    obtain ⟨hne, hds⟩ := hdss ds (List.mem_cons_self ..)
    have hslash : next.run ⟨childPositions (ds :: dss) ++ ')' :: rest, off⟩ =
        .ok (.slash, ⟨ds ++ (childPositions dss ++ ')' :: rest), off + 1⟩) := by
      rw [childPositions_cons, List.cons_append, List.append_assoc]
      exact next_run rfl
    have hstep := elementPositions_numeral hne hds (childPositions_head dss rest) f (off + 1)
    rw [StateT.run_bind, hslash, ok_bind, hstep]
    have hrest := ih (fun d hd => hdss d (List.mem_cons_of_mem _ hd)) f (by simp at hfuel; omega)
      (off + 1 + ds.length)
    have hin : InRange (ds :: dss) ↔
        (1 ≤ numeralValue ds ∧ numeralValue ds ≤ 2 ^ 31 - 1) ∧ InRange dss :=
      List.forall_mem_cons
    by_cases h0 : numeralValue ds = 0
    · rw [if_pos h0, if_neg (by rw [hin]; omega)]
      rfl
    · by_cases hle : numeralValue ds ≤ 2 ^ 31 - 1
      · rw [if_neg h0, if_pos hle, toOption_map_cons, hrest]
        by_cases hr : InRange dss
        · rw [if_pos hr, if_pos (hin.mpr ⟨⟨by omega, hle⟩, hr⟩)]
          rfl
        · rw [if_neg hr, if_neg (fun h => hr (hin.mp h).2)]
          rfl
      · rw [if_neg h0, if_neg hle, if_neg (by rw [hin]; omega)]
        rfl

theorem positions_numerals {dss : List (List Char)} (hdss : Numerals dss) (hin : InRange dss)
    (rest : List Char) : Positions (childPositions dss ++ ')' :: rest) (dss.map numeralValue) rest := by
  induction dss with
  | nil => exact .close rest
  | cons ds dss ih =>
    obtain ⟨hne, hds⟩ := hdss ds (List.mem_cons_self ..)
    obtain ⟨hlo, hhi⟩ := hin ds (List.mem_cons_self ..)
    have hrest := ih (fun d hd => hdss d (List.mem_cons_of_mem _ hd))
      (fun d hd => hin d (List.mem_cons_of_mem _ hd))
    rw [childPositions_cons, List.cons_append, List.append_assoc, List.map_cons, ← digitsValue_eq_numeralValue]
    exact .step hne hds (by rwa [digitsValue_eq_numeralValue]) (by rw [digitsValue_eq_numeralValue]; exact hhi) hrest

theorem length_le_childPositions (dss : List (List Char)) : dss.length ≤ (childPositions dss).length := by
  induction dss with
  | nil => simp [childPositions]
  | cons ds dss ih => simp only [childPositions_cons, List.length_cons, List.length_append]; omega

theorem elementPositions_numerals_fail {dss : List (List Char)} (hdss : Numerals dss)
    (hout : ¬InRange dss) (fuel : Nat) (hfuel : dss.length < fuel) (off : Nat) :
    ∃ e, (do elementPositions fuel (← next)).run ⟨childPositions dss ++ [')'], off⟩ = .error e := by
  have h := elementPositions_numerals hdss [] fuel hfuel off
  rw [if_neg hout] at h
  cases hx : StateT.run (do elementPositions fuel (← next)) ⟨childPositions dss ++ [')'], off⟩ with
  | error e => exact ⟨e, rfl⟩
  | ok p =>
    rw [hx] at h
    cases h

/-- Child positions with a numeral out of range make the payload of `element()` fail, with or
without a name before them. -/
theorem elementPayload_numerals_error {name : Option String}
    (hname : ∀ X ∈ name, Text.isNCName X = true) {dss : List (List Char)} (hdss : Numerals dss)
    (hout : ¬InRange dss) (off : Nat) :
    ∃ e, (payload .element).run ⟨(name.getD "").toList ++ (childPositions dss ++ [')']), off⟩ = .error e := by
  have hlen := length_le_childPositions dss
  cases name with
  | some X =>
    obtain ⟨c, cs, hcs, hc⟩ := childPositions_next dss []
    have hnext : next.run ⟨X.toList ++ (childPositions dss ++ [')']), off⟩ =
        .ok (.name X (c == '('), ⟨childPositions dss ++ [')'], off + X.length⟩) := by
      refine next_run ?_
      rw [nextLexeme_name (hname X rfl) _ (fun y ys h => by rw [hcs] at h; cases h; rcases hc with rfl | rfl <;> rfl)
        (by rw [hcs]; rcases hc with rfl | rfl <;> simp), hcs]
      rfl
    obtain ⟨e, he⟩ := elementPositions_numerals_fail hdss hout
      ((X.toList ++ (childPositions dss ++ [')'])).length + 1) (by simp only [List.length_append]; omega)
      (off + X.length)
    refine ⟨e, ?_⟩
    simp only [payload, elementPayload, Option.getD_some, StateT.run_bind, StateT.run_get, pure_bind,
      hnext, ok_bind]
    rw [StateT.run_bind] at he
    rw [← bind_assoc, he]
    rfl
  | none =>
    obtain ⟨ds, dss', rfl⟩ : ∃ ds dss', dss = ds :: dss' := by
      cases dss with
      | nil => exact absurd (fun ds hds => by cases hds) hout
      | cons ds dss' => exact ⟨ds, dss', rfl⟩
    have hslash : next.run ⟨childPositions (ds :: dss') ++ [')'], off⟩ =
        .ok (.slash, ⟨ds ++ (childPositions dss' ++ [')']), off + 1⟩) := by
      rw [childPositions_cons, List.cons_append, List.append_assoc]
      exact next_run rfl
    obtain ⟨e, he⟩ := elementPositions_numerals_fail hdss hout
      ((childPositions (ds :: dss') ++ [')']).length + 1) (by simp only [List.length_append]; omega) off
    rw [StateT.run_bind, hslash, ok_bind] at he
    refine ⟨e, ?_⟩
    simp only [payload, elementPayload, Option.getD_none, String.toList_empty, List.nil_append,
      StateT.run_bind, StateT.run_get, pure_bind, hslash, ok_bind, he]
    rfl

theorem schemeParts_element_error (fuel off : Nat) {text : List Char} {e : PointerError}
    (h : (payload .element).run ⟨text, off + 1⟩ = .error e) :
    (schemeParts (fuel + 1) [] (.name "element" true)).run ⟨'(' :: text, off⟩ = .error e := by
  have hopen : (modify fun l : PointerLexer => l.nextChar.2 : PointerParser Unit).run
      ⟨'(' :: text, off⟩ = .ok ((), ⟨text, off + 1⟩) := rfl
  simp only [schemeParts, StateT.run_bind, show Scheme.lookup "" "element" = .element from rfl,
    pure_bind, hopen, ok_bind, h]
  rfl

end PointerParser

open PointerLexer PointerParser

theorem parse_element_numerals_ok {name : Option String} (hname : ∀ X ∈ name, Text.isNCName X = true)
    {dss : List (List Char)} (hsome : name.isSome ∨ dss ≠ []) (hdss : Numerals dss) (hin : InRange dss) :
    Pointer.parse (elementText name dss) =
      .ok (.schemeBased [.element name (dss.map numeralValue)] (elementText name dss)) := by
  have hpos := positions_numerals hdss hin []
  have hpayload : ElementPayload ((name.getD "").toList ++ (childPositions dss ++ [')']))
      (some (.element name (dss.map numeralValue))) [] := by
    cases name with
    | some X => exact .named (hname X rfl) hpos
    | none =>
      obtain ⟨ds, dss', rfl⟩ := List.exists_cons_of_ne_nil (hsome.resolve_left (by simp))
      rw [childPositions_cons, List.cons_append] at hpos
      rw [Option.getD_none, String.toList_empty, List.nil_append, childPositions_cons, List.cons_append]
      exact .children hpos
  refine (Pointer.parse_eq_schemeBased_iff (elementText name dss) _ _).mpr ⟨rfl, ?_, ?_⟩
  · unfold elementText
    rw [ne_eq, String.ofList_eq_empty_iff, List.append_eq_nil_iff, not_and]
    intro h
    exact absurd h (by decide)
  · have hopen : "element(".toList = "element".toList ++ ['('] := rfl
    unfold elementText
    rw [String.toList_ofList, hopen, List.append_assoc, List.singleton_append]
    exact .step (.plain (by decide)) (.element hpayload) ⟨[], rfl, by simp, by simp⟩ (.done _)

theorem parse_element_numerals_error {name : Option String}
    (hname : ∀ X ∈ name, Text.isNCName X = true) {dss : List (List Char)} (hdss : Numerals dss)
    (hout : ¬InRange dss) : ∃ e, Pointer.parse (elementText name dss) = .error e := by
  obtain ⟨e, he⟩ := elementPayload_numerals_error hname hdss hout 8
  refine ⟨e, ?_⟩
  have hparts := schemeParts_element_error (elementText name dss).length 7 he
  have hstart : PointerLexer.ofString (elementText name dss) =
      ⟨"element(".toList ++ ((name.getD "").toList ++ (childPositions dss ++ [')'])), 0⟩ := by
    unfold elementText PointerLexer.ofString
    rw [String.toList_ofList]
  simp only [Pointer.parse, hstart, next_element, ok_bind, hparts]
  rfl

/-- A run of digits before a character that is no digit, or the end, whatever its length and
leading zeros, is read to the number lexeme of its decimal value when that is at most
`2 ^ 31 - 1`, and to an error at its first character otherwise. The child positions of
`element()` are then exactly the numerals valued from 1 to `2 ^ 31 - 1`: the pointer
`element(X/d₁/…/dₖ)` (or `element(/d₁/…/dₖ)`) parses to the values of the `dᵢ` when each is in
that range, and fails when one is not. -/
theorem numerals_read_exactly :
    (∀ (l : PointerLexer) (ds r : List Char), ds ≠ [] → (∀ d ∈ ds, d.isDigit = true) →
      (∀ c ∈ r.head?, c.isDigit = false) → l.rest = ds ++ r →
      (nextLexeme l).1 = if numeralValue ds ≤ 2 ^ 31 - 1 then .ok (.number (numeralValue ds))
        else .error (.malformed .numberOutOfRange l.offset)) ∧
    (∀ (name : Option String) (dss : List (List Char)), (∀ X ∈ name, Text.isNCName X = true) →
      (name.isSome ∨ dss ≠ []) → Numerals dss →
      (Pointer.parse (elementText name dss)).toOption =
        if InRange dss then some (.schemeBased [.element name (dss.map numeralValue)] (elementText name dss))
        else none) := by
  refine ⟨fun l ds r hne hds hr hl => nextLexeme_numeral hne hds hr hl, ?_⟩
  intro name dss hname hsome hdss
  by_cases hin : InRange dss
  · rw [if_pos hin, parse_element_numerals_ok hname hsome hdss hin]
    rfl
  · obtain ⟨e, he⟩ := parse_element_numerals_error hname hdss hin
    rw [if_neg hin, he]
    rfl

/-- A numeral one past the limit fails at its first digit, and leading zeros leave a child
position's value as it is. -/
theorem past_limit_and_leading_zeros :
    (nextLexeme ⟨"2147483648)".toList, 5⟩).1 = .error (.malformed .numberOutOfRange 5) ∧
      (Pointer.parse (elementText (some "x") ["0012".toList, "3".toList])).toOption =
        some (.schemeBased [.element (some "x") [12, 3]] (elementText (some "x") ["0012".toList, "3".toList])) := by
  obtain ⟨hlex, hptr⟩ := numerals_read_exactly
  have hdigits : ∀ d ∈ "2147483648".toList, d.isDigit = true := List.all_eq_true.mp (by decide)
  have hnumerals : Numerals ["0012".toList, "3".toList] := by
    intro ds hds
    simp only [List.mem_cons, List.not_mem_nil, or_false] at hds
    rcases hds with rfl | rfl <;> exact ⟨by decide, List.all_eq_true.mp (by decide)⟩
  constructor
  · rw [hlex ⟨"2147483648)".toList, 5⟩ "2147483648".toList [')'] (by decide) hdigits (by simp) rfl,
      if_neg (by decide)]
  · rw [hptr (some "x") _ (by simp; decide) (by decide) hnumerals, if_pos (by decide)]
    rfl

end XmlPointer
