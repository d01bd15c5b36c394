import Mathlib
import XmlPointer.Path.Function
import XmlPointer.Document.Build

/-! # The string functions of XPath, character by character

Two readings of a text stand beside the code: `FirstOccurrence`, a split of a text around the
earliest occurrence of a pattern, and `Words`, a text read as its maximal runs of non-blank
characters. The search gives the first (`firstOccurrence_of_splitAtFirst`), the splitting into
words gives exactly the second (`wordsBy_eq_iff`), and from them each string function on string
arguments is what XPath 1.0 says of it (`string_functions_by_characters`). Blanks there are the
ASCII blanks, so a form feed separates words as well (`form_feed_separates_words`). -/
namespace XmlPointer

namespace Text

/-! ## First occurrences -/

theorem dropPrefix?_eq_some_iff {p s r : List Char} : dropPrefix? p s = some r ↔ s = p ++ r := by
  induction p generalizing s with
  | nil => simp [dropPrefix?]
  | cons x p ih =>
    cases s with
    | nil => simp [dropPrefix?]
    | cons y s =>
      by_cases h : x = y
      · subst h
        simp [dropPrefix?, ih]
      · simp [dropPrefix?, h, Ne.symm h]

theorem dropPrefix?_eq_none_iff {p s : List Char} : dropPrefix? p s = none ↔ ¬ p <+: s := by
  rw [Option.eq_none_iff_forall_ne_some]
  simp only [ne_eq, dropPrefix?_eq_some_iff]
  constructor
  · rintro h ⟨r, rfl⟩
    exact h r rfl
  · intro h r hr
    exact h ⟨r, hr.symm⟩

def FirstOccurrence (pattern text before after : List Char) : Prop :=
  text = before ++ pattern ++ after ∧ ∀ b a, text = b ++ pattern ++ a → before.length ≤ b.length

theorem firstOccurrence_of_splitAtFirst {p s b a : List Char} (h : splitAtFirst p s = some (b, a)) :
    FirstOccurrence p s b a := by
  induction s generalizing b with
  | nil =>
    obtain ⟨r, hr, hba⟩ := Option.map_eq_some_iff.mp h
    cases hba
    exact ⟨by simpa using dropPrefix?_eq_some_iff.mp hr, fun _ _ _ => Nat.zero_le _⟩
  | cons x s ih =>
    rw [splitAtFirst] at h
    cases hd : dropPrefix? p (x :: s) with
    | some r =>
      rw [hd] at h
      cases h
      exact ⟨by simpa using dropPrefix?_eq_some_iff.mp hd, fun _ _ _ => Nat.zero_le _⟩
    | none =>
      rw [hd] at h
      obtain ⟨⟨b', a'⟩, h', hba⟩ := Option.map_eq_some_iff.mp h
      cases hba
      obtain ⟨heq, hmin⟩ := ih h'
      refine ⟨by simp [heq], fun b₂ a₂ h₂ => ?_⟩
      cases b₂ with
      | nil =>
        -- an occurrence at the very start is what `dropPrefix?` ruled out
        exact absurd ⟨a₂, by simpa using h₂.symm⟩ (dropPrefix?_eq_none_iff.mp hd)
      | cons y b₂ =>
        have htail : s = b₂ ++ p ++ a₂ := (List.cons.inj (by simpa using h₂)).2
        simpa using hmin b₂ a₂ htail

theorem splitAtFirst_eq_none_iff {p s : List Char} : splitAtFirst p s = none ↔ ¬ p <:+: s := by
  induction s with
  | nil => simp [splitAtFirst, dropPrefix?_eq_none_iff]
  | cons x s ih =>
    rw [splitAtFirst, List.infix_cons_iff, not_or]
    cases hd : dropPrefix? p (x :: s) with
    | some r => simp [dropPrefix?_eq_some_iff.mp hd]
    | none => simp [ih, dropPrefix?_eq_none_iff.mp hd]

theorem splitAtFirst_nil_pattern (s : List Char) : splitAtFirst [] s = some ([], s) := by
  cases s <;> rfl

theorem occursIn_iff {p s : String} : occursIn p s = true ↔ p.toList <:+: s.toList := by
  rw [occursIn, Option.isSome_iff_ne_none, ne_eq, splitAtFirst_eq_none_iff, not_not]

/-! ## Words -/

/-- A text read as its words: the maximal runs of characters outside `p`, with runs of
characters in `p` before, between and after them. -/
inductive Words (p : Char → Bool) : List Char → List (List Char) → Prop
  | nil : Words p [] []
  | blank {c : Char} {cs : List Char} {ws : List (List Char)} :
      p c = true → Words p cs ws → Words p (c :: cs) ws
  | word {w cs : List Char} {ws : List (List Char)} : w ≠ [] → (∀ c ∈ w, p c = false) →
      cs.head?.all p = true → Words p cs ws → Words p (w ++ cs) (w :: ws)

variable {p : Char → Bool}

theorem wordsBy_append_run {w : List Char} (hw : ∀ c ∈ w, p c = false) (word cs : List Char) :
    wordsBy p word (w ++ cs) = wordsBy p (w.reverse ++ word) cs := by
  induction w generalizing word with
  | nil => rfl
  | cons c w ih =>
    have hc : p c = false := hw c (List.mem_cons_self ..)
    simp only [List.cons_append, wordsBy, hc, Bool.false_eq_true, if_false]
    rw [ih (fun x hx => hw x (List.mem_cons_of_mem _ hx))]
    simp

theorem words_wordsBy (cs : List Char) :
    ∀ word : List Char, (∀ c ∈ word, p c = false) → Words p (word.reverse ++ cs) (wordsBy p word cs) := by
  induction cs with
  | nil =>
    intro word hword
    by_cases hw : word = []
    · subst hw
      exact .nil
    · have h : Words p (word.reverse ++ []) [word.reverse] := .word (List.reverse_ne_nil_iff.mpr hw)
        (fun c hc => hword c (List.mem_reverse.mp hc)) rfl .nil
      simpa [wordsBy, hw] using h
  | cons c cs ih =>
    intro word hword
    cases hc : p c with
    | false =>
      -- the character joins the word begun, and the text is the same
      have h := ih (c :: word) (fun x hx => (List.mem_cons.mp hx).elim (· ▸ hc) (hword x))
      simpa [wordsBy, hc] using h
    | true =>
      have hrest : Words p (c :: cs) (wordsBy p [] cs) := .blank hc (by simpa using ih [] (by simp))
      by_cases hw : word = []
      · subst hw
        simpa [wordsBy, hc] using hrest
      · have h := Words.word (List.reverse_ne_nil_iff.mpr hw)
          (fun x hx => hword x (List.mem_reverse.mp hx)) (by simp [hc]) hrest
        simpa [wordsBy, hc, hw] using h

theorem wordsBy_of_words {s : List Char} {ws : List (List Char)} (h : Words p s ws) :
    wordsBy p [] s = ws := by
  induction h with
  | nil => rfl
  | blank hc _ ih => simp [wordsBy, hc, ih]
  | @word w cs ws hw hrun hnext hws ih =>
    rw [wordsBy_append_run hrun, List.append_nil]
    cases cs with
    | nil =>
      -- nothing follows the word, so no word is left
      rw [← ih]
      simp [wordsBy, hw]
    | cons c cs =>
      have hc : p c = true := by simpa using hnext
      rw [← ih]
      simp [wordsBy, hc, hw]

theorem wordsBy_eq_iff {s : List Char} {ws : List (List Char)} : wordsBy p [] s = ws ↔ Words p s ws :=
  ⟨fun h => h ▸ by simpa using words_wordsBy (p := p) s [] (by simp), wordsBy_of_words⟩

theorem words_exists (p : Char → Bool) (s : List Char) : ∃ ws, Words p s ws :=
  ⟨_, wordsBy_eq_iff.mp rfl⟩

theorem wordsBy_congr {q : Char → Bool} {s : List Char} (h : ∀ c ∈ s, p c = q c) :
    ∀ word, wordsBy p word s = wordsBy q word s := by
  induction s with
  | nil => intro word; rfl
  | cons c s ih =>
    intro word
    have ih' := ih (fun x hx => h x (List.mem_cons_of_mem _ hx))
    simp only [wordsBy, h c (List.mem_cons_self ..), ih']

theorem words_congr {q : Char → Bool} {s : List Char} {ws : List (List Char)} (h : ∀ c ∈ s, p c = q c) :
    Words p s ws ↔ Words q s ws := by
  rw [← wordsBy_eq_iff, ← wordsBy_eq_iff, wordsBy_congr h]

theorem isAsciiBlank_of_ne_formFeed {c : Char} (h : c ≠ '\x0C') : isAsciiBlank c = isXmlBlank c := by
  simp [isAsciiBlank, h]

theorem asciiWords_eq_of_words {s : String} {ws : List (List Char)} (h : Words isAsciiBlank s.toList ws) :
    asciiWords s = ws.map String.ofList := by
  rw [asciiWords, wordsBy_of_words h]

end Text

namespace Path

variable {c : Context} {name : String} {args : List Value}

theorem callFunction_of_arity {f : CoreFunction} (hf : CoreFunction.ofName? name = some f)
    (hlo : f.arity.1 ≤ args.length) (hhi : f.arity.2.all (args.length ≤ ·) = true) :
    callFunction c name args = f.apply c args := by
  have hcheck : checkArity name f.arity args.length = .ok () := by
    simp [checkArity, hlo, hhi]
  simp only [callFunction, hf, hcheck]
  rfl

theorem idxOf?_eq_ite {l : List Char} {x : Char} :
    l.idxOf? x = if x ∈ l then some (l.idxOf x) else none := by
  induction l with
  | nil => simp
  | cons y l ih =>
    rw [List.idxOf?_cons, List.idxOf_cons, ih]
    by_cases hy : y = x
    · simp [hy]
    · have hb : (y == x) = false := by simpa using hy
      by_cases hx : x ∈ l <;> simp [hb, hx, Ne.symm hy]

theorem translateText_eq_flatMap (s source target : List Char) :
    translateText s source target =
      s.flatMap fun x => if x ∈ source then (target[source.idxOf x]?).toList else [x] := by
  unfold translateText
  rw [List.filterMap_eq_flatMap_toList]
  congr 1
  funext x
  rw [idxOf?_eq_ite]
  split_ifs <;> rfl

theorem textBefore_textAfter_of_infix {s p : String} (h : p.toList <:+: s.toList) :
    ∃ b a, Text.FirstOccurrence p.toList s.toList b a ∧
      textBefore s p = String.ofList b ∧ textAfter s p = String.ofList a := by
  cases hs : Text.splitAtFirst p.toList s.toList with
  | none => exact absurd h (Text.splitAtFirst_eq_none_iff.mp hs)
  | some ba =>
    obtain ⟨b, a⟩ := ba
    exact ⟨b, a, Text.firstOccurrence_of_splitAtFirst hs, by simp [textBefore, hs],
      by simp [textAfter, hs]⟩

theorem textBefore_textAfter_of_not_infix {s p : String} (h : ¬ p.toList <:+: s.toList) :
    textBefore s p = "" ∧ textAfter s p = "" := by
  have hs := Text.splitAtFirst_eq_none_iff.mpr h
  exact ⟨by simp [textBefore, hs], by simp [textAfter, hs]⟩

theorem textBefore_textAfter_empty (s : String) : textBefore s "" = "" ∧ textAfter s "" = s := by
  have hs := Text.splitAtFirst_nil_pattern s.toList
  exact ⟨by simp [textBefore, hs], by simp [textAfter, hs]⟩

theorem elementsById_string (d : Document) (s : String) :
    elementsById d (.string s) = normalize ((Text.asciiWords s).filterMap d.elementById) := by
  simp [elementsById, Value.atoms, Value.toText]

section Calls

variable (c : Context) (s t u : String)

theorem callFunction_concat (more : List String) :
    callFunction c "concat" ((s :: t :: more).map .string) = .ok (.string (String.join (s :: t :: more))) := by
  rw [callFunction_of_arity rfl (by simp [CoreFunction.arity]) rfl]
  simp [CoreFunction.apply, Value.toText, Function.comp_def]

theorem callFunction_startsWith :
    callFunction c "starts-with" [.string s, .string t] = .ok (.boolean (decide (t.toList <+: s.toList))) := by
  rw [callFunction_of_arity rfl (by simp [CoreFunction.arity]) rfl]
  show Except.ok (Value.boolean (s.startsWith t)) = _
  rw [Bool.eq_iff_iff.mpr (by simp : s.startsWith t = true ↔ decide (t.toList <+: s.toList) = true)]

theorem callFunction_contains :
    callFunction c "contains" [.string s, .string t] = .ok (.boolean (decide (t.toList <:+: s.toList))) := by
  rw [callFunction_of_arity rfl (by simp [CoreFunction.arity]) rfl]
  show Except.ok (Value.boolean (Text.occursIn t s)) = _
  rw [Bool.eq_iff_iff.mpr (by simp [Text.occursIn_iff] :
    Text.occursIn t s = true ↔ decide (t.toList <:+: s.toList) = true)]

theorem callFunction_substringBefore :
    callFunction c "substring-before" [.string s, .string t] = .ok (.string (textBefore s t)) := by
  rw [callFunction_of_arity rfl (by simp [CoreFunction.arity]) rfl]
  rfl

theorem callFunction_substringAfter :
    callFunction c "substring-after" [.string s, .string t] = .ok (.string (textAfter s t)) := by
  rw [callFunction_of_arity rfl (by simp [CoreFunction.arity]) rfl]
  rfl

theorem callFunction_stringLength :
    callFunction c "string-length" [.string s] = .ok (.number (Float.ofNat s.toList.length)) := by
  rw [callFunction_of_arity rfl (by simp [CoreFunction.arity]) rfl]
  rfl

theorem callFunction_normalizeSpace :
    callFunction c "normalize-space" [.string s] = .ok (.string (" ".intercalate (Text.asciiWords s))) := by
  rw [callFunction_of_arity rfl (by simp [CoreFunction.arity]) rfl]
  rfl

theorem callFunction_id :
    callFunction c "id" [.string s] = .ok (.nodes (normalize ((Text.asciiWords s).filterMap c.doc.elementById))) := by
  rw [callFunction_of_arity rfl (by simp [CoreFunction.arity]) rfl, ← elementsById_string]
  rfl

theorem callFunction_translate :
    callFunction c "translate" [.string s, .string t, .string u] =
      .ok (.string (String.ofList (translateText s.toList t.toList u.toList))) := by
  rw [callFunction_of_arity rfl (by simp [CoreFunction.arity]) rfl]
  rfl

end Calls

/-- The string functions on string arguments, character by character: `concat` joins its
arguments; `starts-with` and `contains` test for a prefix and for an occurrence anywhere;
`substring-before` and `substring-after` split at the first occurrence and give the empty string
when there is none, the empty pattern occurring at the start; `string-length` counts characters;
`translate` maps each character on its own. `normalize-space` and `id` read their argument as
its words between runs of ASCII blanks, the XML blanks and form feed: the first joins the words
with single spaces, the second gives the elements whose ID is one of them, in document order.
On a text without form feed these are its words between XML blanks. -/
theorem string_functions_by_characters (c : Context) (s t u : String) (more : List String) :
    callFunction c "concat" ((s :: t :: more).map .string) =
      .ok (.string (String.join (s :: t :: more))) ∧
    callFunction c "starts-with" [.string s, .string t] =
      .ok (.boolean (decide (t.toList <+: s.toList))) ∧
    callFunction c "contains" [.string s, .string t] =
      .ok (.boolean (decide (t.toList <:+: s.toList))) ∧
    (t.toList <:+: s.toList → ∃ b a, Text.FirstOccurrence t.toList s.toList b a ∧
      callFunction c "substring-before" [.string s, .string t] = .ok (.string (String.ofList b)) ∧
      callFunction c "substring-after" [.string s, .string t] = .ok (.string (String.ofList a))) ∧
    (¬ t.toList <:+: s.toList →
      callFunction c "substring-before" [.string s, .string t] = .ok (.string "") ∧
      callFunction c "substring-after" [.string s, .string t] = .ok (.string "")) ∧
    callFunction c "substring-before" [.string s, .string ""] = .ok (.string "") ∧
    callFunction c "substring-after" [.string s, .string ""] = .ok (.string s) ∧
    callFunction c "string-length" [.string s] = .ok (.number (Float.ofNat s.toList.length)) ∧
    callFunction c "translate" [.string s, .string t, .string u] =
      .ok (.string (String.ofList (s.toList.flatMap fun x =>
        if x ∈ t.toList then (u.toList[t.toList.idxOf x]?).toList else [x]))) ∧
    (∃ ws, Text.Words Text.isAsciiBlank s.toList ws) ∧
    (∀ ws, Text.Words Text.isAsciiBlank s.toList ws →
      callFunction c "normalize-space" [.string s] =
        .ok (.string (" ".intercalate (ws.map String.ofList))) ∧
      callFunction c "id" [.string s] =
        .ok (.nodes (normalize ((ws.map String.ofList).filterMap c.doc.elementById)))) ∧
    ('\x0C' ∉ s.toList → ∀ ws,
      Text.Words Text.isAsciiBlank s.toList ws ↔ Text.Words Text.isXmlBlank s.toList ws) := by
  obtain ⟨hempty, hwhole⟩ := textBefore_textAfter_empty s
  refine ⟨callFunction_concat c s t more, callFunction_startsWith c s t, callFunction_contains c s t,
    fun h => ?_, fun h => ?_, ?_, ?_, callFunction_stringLength c s, ?_, Text.words_exists _ _,
    fun ws hws => ?_, fun hff ws => ?_⟩
  · obtain ⟨b, a, hfirst, hb, ha⟩ := textBefore_textAfter_of_infix h
    exact ⟨b, a, hfirst, by rw [callFunction_substringBefore, hb], by rw [callFunction_substringAfter, ha]⟩
  · obtain ⟨hb, ha⟩ := textBefore_textAfter_of_not_infix h
    exact ⟨by rw [callFunction_substringBefore, hb], by rw [callFunction_substringAfter, ha]⟩
  · rw [callFunction_substringBefore, hempty]
  · rw [callFunction_substringAfter, hwhole]
  · rw [callFunction_translate, translateText_eq_flatMap]
  · rw [callFunction_normalizeSpace, callFunction_id, Text.asciiWords_eq_of_words hws]
    exact ⟨rfl, rfl⟩
  · -- the two notions of blank differ only at form feed
    exact Text.words_congr fun x hx => Text.isAsciiBlank_of_ne_formFeed fun h => hff (h ▸ hx)

/-- A form feed, which is no XML blank, still separates words: on `<r><e id="a"/><e id="b"/></r>`,
`normalize-space('a&#xC;b')` turns it into a space, and `id('a&#xC;b')` finds both elements. -/
theorem form_feed_separates_words :
    Text.isXmlBlank '\x0C' = false ∧
    ∃ d, Document.parse "<r><e id=\"a\"/><e id=\"b\"/></r>".toUTF8.toList true = .ok d ∧
      callFunction ⟨d, 0, 1, 1, .xmlOnly⟩ "normalize-space" [.string "a\x0Cb"] = .ok (.string "a b") ∧
      callFunction ⟨d, 0, 1, 1, .xmlOnly⟩ "id" [.string "a\x0Cb"] = .ok (.nodes [2, 3]) := by
  have hwords : Text.asciiWords "a\x0Cb" = ["a", "b"] := by decide
  have hjoin : " ".intercalate ["a", "b"] = "a b" := by decide
  have hids : (Document.parse "<r><e id=\"a\"/><e id=\"b\"/></r>".toUTF8.toList true).toOption.map
      (fun d => ["a", "b"].filterMap d.elementById) = some [2, 3] := by
    decide +kernel
  have hsorted : Path.normalize [2, 3] = [2, 3] := by
    unfold Path.normalize
    rw [List.mergeSort_of_pairwise (by decide)]
    rfl
  cases hd : Document.parse "<r><e id=\"a\"/><e id=\"b\"/></r>".toUTF8.toList true with
  | error e =>
    rw [hd] at hids
    cases hids
  | ok d =>
    have hfound : ["a", "b"].filterMap d.elementById = [2, 3] := by
      rw [hd] at hids
      exact Option.some.inj hids
    refine ⟨rfl, d, rfl, ?_, ?_⟩
    · rw [callFunction_normalizeSpace, hwords, hjoin]
    · rw [callFunction_id, hwords]
      show Except.ok (Value.nodes (Path.normalize (["a", "b"].filterMap d.elementById))) = _
      rw [hfound, hsorted]

end Path

end XmlPointer
