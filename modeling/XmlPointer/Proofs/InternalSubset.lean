import Mathlib
import XmlPointer.Markup.Token
import XmlPointer.Markup.Dtd
import XmlPointer.Proofs.Utf8Units

/-! # Internal subsets

A document type declaration may hold an internal subset in brackets: markup declarations,
processing instructions, comments and blanks (XML 1.0, production 28b). Two scanners read it
without parsing it. The tokenizer looks for the `>` that ends the declaration, passing over
quoted literals, the bracketed subset and comments. The DTD reader takes the `ID` attributes
from the attribute-list declarations, passing over comments and ending every other
declaration at its first `>` outside quotes.

Both are right on a declaration written by the grammar `DoctypeContent`: the tokenizer's token
ends at the declaration's own `>`, and the `ID` attribute of an element is the first one
declared for it (`doctype_subset_read`). The grammar is XML's, narrowed where the scanners need
it. The head of the declaration (its name and external identifier) holds no `[`. Within a
processing instruction, as within a declaration, quotes pair up and no `<`, `>`, `[` or `]`
stands outside them. A quote that stands alone in a processing instruction throws both
scanners off (`instruction_quote_hides_subset`). -/
namespace XmlPointer.Markup

section Grammar

def isPlainByte (b : UInt8) : Bool :=
  !(isQuote b || b = 0x3C || b = 0x3E || b = 0x5B || b = 0x5D)

/-- Text whose quotes pair up into literals, with plain bytes outside them: an external
identifier, the body of a markup declaration, the data of a processing instruction. -/
inductive Paired : List UInt8 → Prop
  | nil : Paired []
  | byte {b : UInt8} {bs : List UInt8} : isPlainByte b = true → Paired bs → Paired (b :: bs)
  | literal {q : UInt8} {lit bs : List UInt8} : isQuote q = true → q ∉ lit → Paired bs →
      Paired (q :: (lit ++ q :: bs))

def CommentText (c : List UInt8) : Prop :=
  ¬ [0x2D, 0x2D] <:+: c ∧ c.getLast? ≠ some 0x2D

instance (c : List UInt8) : Decidable (CommentText c) :=
  inferInstanceAs (Decidable (¬ [0x2D, 0x2D] <:+: c ∧ c.getLast? ≠ some 0x2D))

def isQuoteChar (c : Char) : Bool :=
  c = '"' || c = Char.ofNat 0x27

def isNameChar (c : Char) : Bool :=
  !(Text.isAsciiBlank c || c = '(' || isQuoteChar c || c = '<' || c = '>' || c = '[' || c = ']')

def isGroupChar (c : Char) : Bool :=
  !(c = ')' || isQuoteChar c || c = '<' || c = '>' || c = '[' || c = ']')

/-- A word of an attribute-list declaration: a name, an enumeration in parentheses, or a
quoted literal. -/
inductive Word : List Char → Prop
  | name {c : Char} {cs : List Char} : (c :: cs).all isNameChar = true → Word (c :: cs)
  | group {body : List Char} : body.all isGroupChar = true → Word ('(' :: (body ++ [')']))
  | literal {q : Char} {body : List Char} : isQuoteChar q = true → q ∉ body →
      Word (q :: (body ++ [q]))

/-- Words written one after another, each followed by a blank or by the end, with blanks
before and between them. -/
inductive Spaced : List String → List Char → Prop
  | nil : Spaced [] []
  | blank {c : Char} {ws : List String} {cs : List Char} : Text.isAsciiBlank c = true →
      Spaced ws cs → Spaced ws (c :: cs)
  | word {w : String} {ws : List String} {cs : List Char} : Word w.toList →
      cs.head?.all Text.isAsciiBlank = true → Spaced ws cs → Spaced (w :: ws) (w.toList ++ cs)

/-- The quote that delimits a literal. -/
inductive Quote where
  | double
  | single
  deriving DecidableEq, Repr

/-- The character of a quote. -/
def Quote.char : Quote → Char
  | .double => '"'
  | .single => Char.ofNat 0x27

def Quote.enclose (q : Quote) (body : String) : String :=
  String.singleton q.char ++ body ++ String.singleton q.char

/-- The type of an attribute (production 54): a name such as `CDATA` or `ID`, an enumeration,
or `NOTATION` and an enumeration. -/
inductive AttType where
  | named (name : String) (notKeyword : name ≠ "NOTATION")
  | enumeration (body : String)
  | formats (body : String)

/-- Whether an attribute type is `ID`. -/
def AttType.isId : AttType → Bool
  | .named name _ => name == "ID"
  | _ => false

/-- The words of an attribute type. -/
def AttType.words : AttType → List String
  | .named name _ => [name]
  | .enumeration body => ["(" ++ body ++ ")"]
  | .formats body => ["NOTATION", "(" ++ body ++ ")"]

/-- The default of an attribute (production 60). -/
inductive DefaultDecl where
  | required
  | implied
  | value (q : Quote) (body : String)
  | fixed (q : Quote) (body : String)

/-- The words of a default. -/
def DefaultDecl.words : DefaultDecl → List String
  | .required => ["#REQUIRED"]
  | .implied => ["#IMPLIED"]
  | .value q body => [q.enclose body]
  | .fixed q body => ["#FIXED", q.enclose body]

/-- An attribute definition (production 53). -/
structure AttDef where
  name : String
  type : AttType
  default : DefaultDecl

def AttDef.words (a : AttDef) : List String :=
  a.name :: (a.type.words ++ a.default.words)

/-- An attribute-list declaration (production 52): an element and its attribute definitions. -/
structure Attlist where
  element : String
  defs : List AttDef

def Attlist.words (l : Attlist) : List String :=
  l.element :: l.defs.flatMap AttDef.words

def Attlist.ids (l : Attlist) : List (String × String) :=
  (l.defs.filter (·.type.isId)).map fun a => (l.element, a.name)

def declaredId (ls : List Attlist) (element : String) : Option String :=
  ((ls.flatMap Attlist.ids).find? (·.1 == element)).map (·.2)

def otherDeclarations : List String :=
  ["ELEMENT", "ENTITY", "NOTATION"]

/-- An internal subset (production 28b) that declares the attribute lists `ls`, in order. -/
inductive Subset : List Attlist → List UInt8 → Prop
  | nil : Subset [] []
  | blank {b : UInt8} {ls : List Attlist} {bs : List UInt8} : Text.isXmlBlankByte b = true →
      Subset ls bs → Subset ls (b :: bs)
  | comment {c : List UInt8} {ls : List Attlist} {bs : List UInt8} : CommentText c →
      Subset ls bs → Subset ls (ascii "<!--" ++ c ++ ascii "-->" ++ bs)
  | instruction {d : List UInt8} {ls : List Attlist} {bs : List UInt8} : Paired d →
      Subset ls bs → Subset ls (ascii "<?" ++ d ++ ascii "?>" ++ bs)
  | declaration {kw : String} {body : List UInt8} {ls : List Attlist} {bs : List UInt8} :
      kw ∈ otherDeclarations → Paired body → Subset ls bs →
      Subset ls (ascii ("<!" ++ kw) ++ body ++ 0x3E :: bs)
  | attlist {l : Attlist} {body : String} {ls : List Attlist} {bs : List UInt8} :
      Spaced l.words body.toList → Subset ls bs →
      Subset (l :: ls) (ascii "<!ATTLIST" ++ Text.Utf8.encode body ++ 0x3E :: bs)

/-- The content of a document type declaration between `<!DOCTYPE` and its `>`, declaring the
attribute lists `ls` (production 28): a head with no `[`, its name and external identifier,
then the internal subset in brackets, if there is one, and blanks. -/
inductive DoctypeContent : List Attlist → List UInt8 → Prop
  | external {head : List UInt8} : Paired head → 0x5B ∉ head → DoctypeContent [] head
  | internal {head : List UInt8} {ls : List Attlist} {bs tail : List UInt8} : Paired head →
      0x5B ∉ head → Subset ls bs → tail.all Text.isXmlBlankByte = true →
      DoctypeContent ls (head ++ 0x5B :: (bs ++ 0x5D :: tail))

end Grammar

section Plain

theorem isPlainByte_of_high {b : UInt8} (h : 0x80 ≤ b.toNat) : isPlainByte b = true := by
  simp only [isPlainByte, isQuote, ← UInt8.toNat_inj]
  simp
  omega

theorem plain_of_utf8EncodeChar {c : Char}
    (hc : c.toNat < 0x80 → isPlainByte (UInt8.ofNat c.toNat) = true) :
    ∀ b ∈ String.utf8EncodeChar c, isPlainByte b = true := by
  intro b hb
  by_cases hlow : b.toNat < 0x80
  · have hcb := Text.Utf8.ascii_mem_utf8EncodeChar hb hlow
    have hp := hc (by omega)
    rwa [hcb, UInt8.ofNat_toNat] at hp
  · exact isPlainByte_of_high (by omega)

theorem Paired.append {s t : List UInt8} (hs : Paired s) (ht : Paired t) : Paired (s ++ t) := by
  induction hs with
  | nil => exact ht
  | byte hb _ ih => exact .byte hb ih
  | literal hq hlit _ ih =>
    rw [List.cons_append, List.append_assoc, List.cons_append]
    exact .literal hq hlit ih

theorem Paired.of_plain {t : List UInt8} (h : t.all isPlainByte = true) : Paired t := by
  induction t with
  | nil => exact .nil
  | cons b t ih =>
    simp only [List.all_cons, Bool.and_eq_true] at h
    exact .byte h.1 (ih h.2)

theorem utf8EncodeChar_quote {q : Char} (hq : isQuoteChar q = true) :
    ∃ b, String.utf8EncodeChar q = [b] ∧ isQuote b = true ∧ b.toNat = q.toNat ∧
      b.toNat < 0x80 := by
  simp only [isQuoteChar, Bool.or_eq_true, decide_eq_true_eq] at hq
  rcases hq with rfl | rfl
  · exact ⟨0x22, by decide, by decide, rfl, by decide⟩
  · exact ⟨0x27, by decide, by decide, rfl, by decide⟩

theorem Paired.of_chars {p : Char → Bool}
    (hp : ∀ n < 0x80, p (Char.ofNat n) = true → isPlainByte (UInt8.ofNat n) = true)
    {cs : List Char} (h : cs.all p = true) : Paired (cs.flatMap String.utf8EncodeChar) := by
  refine .of_plain (List.all_eq_true.mpr fun b hb => ?_)
  obtain ⟨c, hc, hbc⟩ := List.mem_flatMap.mp hb
  refine plain_of_utf8EncodeChar (fun hlow => hp c.toNat hlow ?_) b hbc
  rw [Char.ofNat_toNat]
  exact List.all_eq_true.mp h c hc

theorem Word.paired {w : List Char} (h : Word w) : Paired (w.flatMap String.utf8EncodeChar) := by
  cases h with
  -- the ASCII members of each class of characters are checked one by one
  | name hc => exact .of_chars (p := isNameChar) (by decide) hc
  | @group body hbody =>
    refine .of_chars (p := fun c => c = '(' || c = ')' || isGroupChar c) (by decide) ?_
    simp only [List.all_cons, List.all_append, List.all_nil, Bool.and_true]
    simp only [List.all_eq_true] at hbody
    simpa using fun c hc => .inr (hbody c hc)
  | @literal q body hq hbody =>
    obtain ⟨b, hb, hquote, hbq, hlow⟩ := utf8EncodeChar_quote hq
    -- no character of the body has the quote's byte
    have hnot : b ∉ body.flatMap String.utf8EncodeChar := by
      intro hmem
      obtain ⟨c, hc, hbc⟩ := List.mem_flatMap.mp hmem
      have hcb := Text.Utf8.ascii_mem_utf8EncodeChar hbc hlow
      have hcq : c = q := by rw [← Char.ofNat_toNat c, ← Char.ofNat_toNat q, hcb, hbq]
      exact hbody (hcq ▸ hc)
    rw [List.flatMap_cons, hb, List.flatMap_append, List.flatMap_singleton, hb]
    exact .literal hquote hnot .nil

theorem Spaced.paired {ws : List String} {cs : List Char} (h : Spaced ws cs) :
    Paired (cs.flatMap String.utf8EncodeChar) := by
  induction h with
  | nil => exact .nil
  | @blank c _ _ hc _ ih =>
    have hfirst : Paired ([c].flatMap String.utf8EncodeChar) :=
      .of_chars (p := Text.isAsciiBlank) (by decide) (by simp [hc])
    rw [← List.singleton_append, List.flatMap_append]
    exact hfirst.append ih
  | word hw _ _ ih =>
    rw [List.flatMap_append]
    exact hw.paired.append ih

theorem isPlainByte_of_blank {b : UInt8} (hb : Text.isXmlBlankByte b = true) :
    isPlainByte b = true := by
  simp only [Text.isXmlBlankByte, Bool.or_eq_true, decide_eq_true_eq] at hb
  rcases hb with ((rfl | rfl) | rfl) | rfl <;> decide

theorem Word.of_name {w : String} (hne : w ≠ "") (h : w.toList.all isNameChar = true) :
    Word w.toList := by
  cases hw : w.toList with
  | nil => exact absurd (String.toList_eq_nil_iff.mp hw) hne
  | cons c cs => exact .name (hw ▸ h)

theorem Word.of_enumeration {body : String} (h : body.toList.all isGroupChar = true) :
    Word ("(" ++ body ++ ")").toList := by
  simpa [String.toList_append] using (Word.group h)

theorem Word.of_literal (q : Quote) {body : String} (h : q.char ∉ body.toList) :
    Word (q.enclose body).toList := by
  have hq : isQuoteChar q.char = true := by cases q <;> decide
  simpa [Quote.enclose, String.toList_append] using (Word.literal hq h)

theorem Spaced.of_words {ws : List String} (h : ∀ w ∈ ws, Word w.toList) :
    Spaced ws (ws.flatMap fun w => ' ' :: w.toList) := by
  induction ws with
  | nil => exact .nil
  | cons w ws ih =>
    rw [List.forall_mem_cons] at h
    have hnext : (ws.flatMap fun w => ' ' :: w.toList).head?.all Text.isAsciiBlank = true := by
      cases ws <;> simp [Text.isAsciiBlank, Text.isXmlBlank]
    exact .blank (by decide) (.word h.1 hnext (ih h.2))

end Plain

section Openings

theorem ascii_append (s t : String) : ascii (s ++ t) = ascii s ++ ascii t := by
  simp [ascii]

theorem length_ascii (s : String) : (ascii s).length = s.length := by
  simp [ascii, String.length_toList]

theorem isPrefixOf_append_eq_false {p q : List UInt8} (hpq : p.isPrefixOf q = false)
    (hqp : q.isPrefixOf p = false) (x : List UInt8) : p.isPrefixOf (q ++ x) = false := by
  rw [Bool.eq_false_iff]
  intro h
  rcases List.prefix_or_prefix_of_prefix (List.isPrefixOf_iff_prefix.mp h)
      (List.prefix_append q x) with h' | h'
  · simp [List.isPrefixOf_iff_prefix.mpr h'] at hpq
  · simp [List.isPrefixOf_iff_prefix.mpr h'] at hqp

theorem isPrefixOf_append_self (p x : List UInt8) : p.isPrefixOf (p ++ x) = true :=
  List.isPrefixOf_iff_prefix.mpr (List.prefix_append p x)

theorem findSeq_comment {c : List UInt8} (hc : CommentText c) (bs : List UInt8) :
    findSeq (ascii "-->") (c ++ ascii "-->" ++ bs) = some c.length := by
  rw [show ascii "-->" = [0x2D, 0x2D, 0x3E] by decide]
  induction c with
  | nil => simp [findSeq, List.isPrefixOf]
  | cons x c ih =>
    obtain ⟨hdashes, hlast⟩ := hc
    have hc' : CommentText c := by
      refine ⟨fun h => hdashes (h.trans (List.suffix_cons x c).isInfix), fun h => hlast ?_⟩
      simp [List.getLast?_cons, h]
    -- a hyphen of the text is followed by a byte of the text that is no hyphen
    have hnot : [0x2D, 0x2D, 0x3E].isPrefixOf (x :: (c ++ [0x2D, 0x2D, 0x3E] ++ bs)) = false := by
      by_cases hx : x = 0x2D
      · subst hx
        cases c with
        | nil => simp at hlast
        | cons y c =>
          have hy : y ≠ 0x2D := by
            rintro rfl
            exact hdashes (List.prefix_append [0x2D, 0x2D] c).isInfix
          simp [List.isPrefixOf, Ne.symm hy]
      · simp [List.isPrefixOf, Ne.symm hx]
    rw [List.cons_append, List.cons_append, findSeq, hnot, if_neg Bool.false_ne_true, ih hc']
    rfl

/-! Each markup item of a subset other than a comment, as the bytes between its `<` and its
`>`: their quotes pair up, and they open no comment. -/

theorem instruction_bytes (d x : List UInt8) :
    ascii "<?" ++ d ++ ascii "?>" ++ x = 0x3C :: ((0x3F :: (d ++ [0x3F])) ++ 0x3E :: x) := by
  rw [show ascii "<?" = [0x3C, 0x3F] by decide, show ascii "?>" = [0x3F, 0x3E] by decide]
  simp

theorem declaration_bytes (kw : String) (body x : List UInt8) :
    ascii ("<!" ++ kw) ++ body ++ 0x3E :: x =
      0x3C :: ((0x21 :: (ascii kw ++ body)) ++ 0x3E :: x) := by
  rw [ascii_append, show ascii "<!" = [0x3C, 0x21] by decide]
  simp

theorem attlist_bytes (e x : List UInt8) :
    ascii "<!ATTLIST" ++ e ++ 0x3E :: x = 0x3C :: ((ascii "!ATTLIST" ++ e) ++ 0x3E :: x) := by
  rw [show ascii "<!ATTLIST" = 0x3C :: ascii "!ATTLIST" by decide]
  simp

theorem instruction_paired {d : List UInt8} (hd : Paired d) : Paired (0x3F :: (d ++ [0x3F])) :=
  .byte (by decide) (hd.append (.byte (by decide) .nil))

theorem declaration_paired {kw : String} {body : List UInt8} (hkw : kw ∈ otherDeclarations)
    (hbody : Paired body) : Paired (0x21 :: (ascii kw ++ body)) := by
  refine .byte (by decide) ((Paired.of_plain ?_).append hbody)
  simp only [otherDeclarations, List.mem_cons, List.not_mem_nil, or_false] at hkw
  rcases hkw with rfl | rfl | rfl <;> decide

theorem attlist_paired {l : Attlist} {body : String} (hs : Spaced l.words body.toList) :
    Paired (ascii "!ATTLIST" ++ Text.Utf8.encode body) :=
  (Paired.of_plain (by decide)).append hs.paired

theorem instruction_mismatch {p : List UInt8} (h1 : p.isPrefixOf [0x3F] = false)
    (h2 : [0x3F].isPrefixOf p = false) (d x : List UInt8) :
    p.isPrefixOf ((0x3F :: (d ++ [0x3F])) ++ x) = false :=
  isPrefixOf_append_eq_false h1 h2 _

theorem declaration_mismatch {p : List UInt8}
    (hp : otherDeclarations.all (fun kw =>
      !p.isPrefixOf (0x21 :: ascii kw) && !(0x21 :: ascii kw).isPrefixOf p) = true)
    {kw : String} (hkw : kw ∈ otherDeclarations) (body x : List UInt8) :
    p.isPrefixOf ((0x21 :: (ascii kw ++ body)) ++ x) = false := by
  have h := List.all_eq_true.mp hp kw hkw
  simp only [Bool.and_eq_true, Bool.not_eq_true'] at h
  rw [List.cons_append, List.append_assoc, ← List.cons_append]
  exact isPrefixOf_append_eq_false h.1 h.2 _

theorem attlist_mismatch {p : List UInt8} (h1 : p.isPrefixOf (ascii "!ATTLIST") = false)
    (h2 : (ascii "!ATTLIST").isPrefixOf p = false) (e x : List UInt8) :
    p.isPrefixOf ((ascii "!ATTLIST" ++ e) ++ x) = false := by
  rw [List.append_assoc]
  exact isPrefixOf_append_eq_false h1 h2 _

end Openings

section Tokenizer

variable {start depth p : Nat}

theorem doctypeClose_plain {b : UInt8} (hb : isPlainByte b = true) (bs : List UInt8) :
    doctypeClose start depth none p (b :: bs) = doctypeClose start depth none (p + 1) bs := by
  simp only [isPlainByte, Bool.not_eq_true', Bool.or_eq_false_iff, decide_eq_false_iff_not] at hb
  obtain ⟨⟨⟨⟨hq, hlt⟩, hgt⟩, hopen⟩, hclose⟩ := hb
  rw [doctypeClose]
  simp [hq, hlt, hgt, hopen, hclose]

theorem doctypeClose_quote {q : UInt8} (hq : isQuote q = true) (bs : List UInt8) :
    doctypeClose start depth none p (q :: bs) = doctypeClose start depth (some q) (p + 1) bs := by
  rw [doctypeClose]
  simp [hq]

theorem doctypeClose_unclosed {q : UInt8} {bs : List UInt8} (hq : q ∉ bs) :
    doctypeClose start depth (some q) p bs = .error ⟨.unterminatedDoctype, start⟩ := by
  induction bs generalizing p with
  | nil => rw [doctypeClose]
  | cons b bs ih =>
    simp only [List.mem_cons, not_or] at hq
    rw [doctypeClose]
    simp only [Ne.symm hq.1, if_false]
    exact ih hq.2

theorem doctypeClose_literal {q : UInt8} {lit : List UInt8} (hq : q ∉ lit) (bs : List UInt8) :
    doctypeClose start depth (some q) p (lit ++ q :: bs) =
      doctypeClose start depth none (p + lit.length + 1) bs := by
  induction lit generalizing p with
  | nil => rw [List.nil_append, doctypeClose]; simp
  | cons b lit ih =>
    simp only [List.mem_cons, not_or] at hq
    rw [List.cons_append, doctypeClose]
    simp only [Ne.symm hq.1, if_false]
    rw [ih hq.2, List.length_cons]
    congr 1
    omega

theorem doctypeClose_paired {t : List UInt8} (ht : Paired t) (bs : List UInt8) :
    doctypeClose start depth none p (t ++ bs) =
      doctypeClose start depth none (p + t.length) bs := by
  induction ht generalizing p with
  | nil => rfl
  | byte hb _ ih =>
    rw [List.cons_append, doctypeClose_plain hb, ih, List.length_cons]
    congr 1
    omega
  | @literal q lit rest hq hlit _ ih =>
    rw [List.cons_append, doctypeClose_quote hq, List.append_assoc, List.cons_append,
      doctypeClose_literal hlit, ih]
    simp only [List.length_cons, List.length_append]
    congr 1
    omega

theorem doctypeClose_comment {c : List UInt8} (hc : CommentText c) (bs : List UInt8) :
    doctypeClose start depth none p (ascii "<!--" ++ c ++ ascii "-->" ++ bs) =
      doctypeClose start depth none (p + (c.length + 7)) bs := by
  have hopen : ascii "<!--" = 0x3C :: ascii "!--" := by decide
  have hlen : (ascii "!--").length = 3 := by decide
  have hdrop : (ascii "!--" ++ (c ++ (ascii "-->" ++ bs))).drop 3 = c ++ ascii "-->" ++ bs := by
    rw [← hlen, List.drop_left, List.append_assoc]
  have hskip : (ascii "!--" ++ (c ++ (ascii "-->" ++ bs))).drop (c.length + 6) = bs := by
    rw [show c.length + 6 = 3 + (c.length + 3) by omega, ← List.drop_drop, ← hlen,
      List.drop_left, ← List.drop_drop, List.drop_left,
      show ascii "-->" = [0x2D, 0x2D, 0x3E] by decide]
    rfl
  rw [hopen, List.append_assoc, List.append_assoc, List.cons_append, doctypeClose]
  simp only [show isQuote 0x3C = false by decide, Bool.false_eq_true, if_false]
  rw [if_neg (by decide), if_neg (by decide), if_pos (by simp [isPrefixOf_append_self]), hdrop,
    findSeq_comment hc]
  dsimp only
  rw [hskip]
  congr 1
  omega

theorem doctypeClose_open (bs : List UInt8) :
    doctypeClose start depth none p (0x5B :: bs) =
      doctypeClose start (depth + 1) none (p + 1) bs := by
  rw [doctypeClose]
  simp [isQuote]

theorem doctypeClose_close (bs : List UInt8) :
    doctypeClose start (depth + 1) none p (0x5D :: bs) =
      doctypeClose start depth none (p + 1) bs := by
  rw [doctypeClose]
  simp [isQuote]

theorem doctypeClose_end (bs : List UInt8) :
    doctypeClose start 0 none p (0x3E :: bs) = .ok (p, bs) := by
  rw [doctypeClose]
  simp [isQuote]

theorem doctypeClose_lt (bs : List UInt8) (hc : (ascii "!--").isPrefixOf bs = false) :
    doctypeClose start depth none p (0x3C :: bs) = doctypeClose start depth none (p + 1) bs := by
  rw [doctypeClose]
  simp only [show isQuote 0x3C = false by decide, Bool.false_eq_true, if_false]
  rw [if_neg (by decide), if_neg (by decide), if_neg (by simp [hc]), if_neg (by simp)]

theorem doctypeClose_inner_gt (bs : List UInt8) :
    doctypeClose start (depth + 1) none p (0x3E :: bs) =
      doctypeClose start (depth + 1) none (p + 1) bs := by
  rw [doctypeClose]
  simp [isQuote]

theorem doctypeClose_markup {t : List UInt8} (ht : Paired t) (bs : List UInt8)
    (hc : (ascii "!--").isPrefixOf (t ++ 0x3E :: bs) = false) :
    doctypeClose start (depth + 1) none p (0x3C :: (t ++ 0x3E :: bs)) =
      doctypeClose start (depth + 1) none (p + t.length + 2) bs := by
  rw [doctypeClose_lt _ hc, doctypeClose_paired ht, doctypeClose_inner_gt]
  congr 1
  omega

/-- A subset is passed over whole: its last `>` ends nothing, for it lies inside the brackets. -/
theorem doctypeClose_subset {ls : List Attlist} {bs : List UInt8} (h : Subset ls bs)
    (rest : List UInt8) :
    doctypeClose start (depth + 1) none p (bs ++ rest) =
      doctypeClose start (depth + 1) none (p + bs.length) rest := by
  induction h generalizing p with
  | nil => rfl
  | blank hb _ ih =>
    rw [List.cons_append, doctypeClose_plain (isPlainByte_of_blank hb), ih, List.length_cons]
    congr 1
    omega
  | comment hc _ ih =>
    rw [List.append_assoc, doctypeClose_comment hc, ih]
    simp only [List.length_append, length_ascii]
    congr 1
    have : "<!--".length + "-->".length = 7 := by decide
    omega
  | instruction hd _ ih =>
    rw [List.append_assoc, instruction_bytes,
      doctypeClose_markup (instruction_paired hd) _
        (instruction_mismatch (by decide) (by decide) _ _), ih]
    simp only [List.length_append, List.length_cons, List.length_nil, length_ascii]
    congr 1
    have : "<?".length = 2 ∧ "?>".length = 2 := by decide
    omega
  | declaration hkw hbody _ ih =>
    rw [List.append_assoc, List.cons_append, declaration_bytes,
      doctypeClose_markup (declaration_paired hkw hbody) _
        (declaration_mismatch (by decide) hkw _ _), ih]
    simp only [List.length_append, List.length_cons, length_ascii, String.length_append]
    congr 1
    have : "<!".length = 2 := by decide
    omega
  | attlist hs _ ih =>
    rw [List.append_assoc, List.cons_append, attlist_bytes,
      doctypeClose_markup (attlist_paired hs) _ (attlist_mismatch (by decide) (by decide) _ _),
      ih]
    simp only [List.length_append, List.length_cons, length_ascii]
    congr 1
    have : "<!ATTLIST".length = "!ATTLIST".length + 1 := by decide
    omega

theorem doctypeClose_content {ls : List Attlist} {content : List UInt8}
    (h : DoctypeContent ls content) (after : List UInt8) :
    doctypeClose start 0 none p (content ++ 0x3E :: after) = .ok (p + content.length, after) := by
  cases h with
  | external hhead _ => rw [doctypeClose_paired hhead, doctypeClose_end]
  | @internal head _ bs tail hhead _ hs htail =>
    have htail' : Paired tail := .of_plain (List.all_eq_true.mpr fun b hb =>
      isPlainByte_of_blank (List.all_eq_true.mp htail b hb))
    rw [List.append_assoc, doctypeClose_paired hhead, List.cons_append, doctypeClose_open,
      List.append_assoc, doctypeClose_subset hs, List.cons_append, doctypeClose_close,
      doctypeClose_paired htail', doctypeClose_end]
    simp only [List.length_append, List.length_cons]
    congr 2
    omega

theorem scan_doctype_open (pos : Nat) (rest : List UInt8) :
    Token.scan pos (ascii "<!DOCTYPE" ++ rest) = scanDoctype pos (ascii "<!DOCTYPE" ++ rest) := by
  have hcomment : (ascii "<!--").isPrefixOf (ascii "<!DOCTYPE" ++ rest) = false :=
    isPrefixOf_append_eq_false (by decide) (by decide) _
  have hcdata : (ascii "<![CDATA[").isPrefixOf (ascii "<!DOCTYPE" ++ rest) = false :=
    isPrefixOf_append_eq_false (by decide) (by decide) _
  have hdoctype : (ascii "<!DOCTYPE").isPrefixOf (ascii "<!DOCTYPE" ++ rest) = true :=
    isPrefixOf_append_self _ _
  have hopen : ascii "<!DOCTYPE" = [0x3C, 0x21, 0x44, 0x4F, 0x43, 0x54, 0x59, 0x50, 0x45] := by
    decide
  -- the scanner dispatches on the first two bytes, so they are written out
  nth_rewrite 2 [hopen] at hdoctype
  rw [hopen] at hcomment hcdata ⊢
  simp only [List.cons_append, List.nil_append] at hcomment hcdata hdoctype ⊢
  simp only [Token.scan, hcomment, hcdata, hdoctype, Bool.false_eq_true, if_false, if_true]

theorem scan_doctype {ls : List Attlist} {content : List UInt8} (h : DoctypeContent ls content)
    (pos : Nat) (after : List UInt8) :
    Token.scan pos (ascii "<!DOCTYPE" ++ content ++ 0x3E :: after) =
      .ok (⟨.doctype, pos, pos + 9 + content.length + 1, none, some content, pos + 9⟩,
        after) := by
  have hbody :
      (ascii "<!DOCTYPE" ++ (content ++ 0x3E :: after)).drop 9 = content ++ 0x3E :: after := by
    rw [show 9 = (ascii "<!DOCTYPE").length by decide, List.drop_left]
  rw [List.append_assoc, scan_doctype_open, scanDoctype]
  simp only [hbody, doctypeClose_content h after]
  rw [show pos + 9 + content.length - (pos + 9) = content.length by omega, List.take_left]

end Tokenizer

section Declarations

theorem Dtd.idAttribute_declare (d : Dtd) (element attr x : String) :
    (d.declare element attr).idAttribute x =
      (d.idAttribute x).or (([(element, attr)].find? (·.1 == x)).map (·.2)) := by
  unfold Dtd.declare Dtd.idAttribute
  split_ifs with h
  · -- the element has an attribute already, which an element named `x` finds first
    by_cases hx : element = x
    · subst hx
      obtain ⟨p, hp, hpe⟩ := List.any_eq_true.mp h
      obtain ⟨q, hq⟩ : ∃ q, d.ids.find? (·.1 == element) = some q :=
        Option.isSome_iff_exists.mp (List.find?_isSome.mpr ⟨p, hp, hpe⟩)
      simp [hq]
    · simp [hx]
  · simp only [List.find?_append, Option.map_or]

theorem Dtd.idAttribute_foldl_declare (ps : List (String × String)) (d : Dtd) (x : String) :
    (ps.foldl (fun d p => d.declare p.1 p.2) d).idAttribute x =
      (d.idAttribute x).or ((ps.find? (·.1 == x)).map (·.2)) := by
  induction ps generalizing d with
  | nil => simp
  | cons p ps ih =>
    rw [List.foldl_cons, ih, Dtd.idAttribute_declare, Option.or_assoc, ← Option.map_or,
      ← List.find?_append]
    rfl

theorem takeWhile_of_blank_head {p : Char → Bool} {cs : List Char}
    (hnext : cs.head?.all Text.isAsciiBlank = true)
    (hp : ∀ c, Text.isAsciiBlank c = true → p c = false) : cs.takeWhile p = [] := by
  cases cs with
  | nil => rfl
  | cons c cs =>
    simp only [List.head?_cons, Option.all_some] at hnext
    simp [hp c hnext]

theorem isNameChar_stops {c : Char} (h : isNameChar c = true) :
    Text.isAsciiBlank c = false ∧ c ≠ '(' ∧ c ≠ '"' ∧ c ≠ Char.ofNat 0x27 := by
  simp only [isNameChar, isQuoteChar, Bool.not_eq_true', Bool.or_eq_false_iff,
    decide_eq_false_iff_not] at h
  obtain ⟨⟨⟨⟨⟨⟨hblank, hparen⟩, hdouble, hsingle⟩, -⟩, -⟩, -⟩, -⟩ := h
  exact ⟨hblank, hparen, hdouble, hsingle⟩

theorem declarationWords_enclosed {c close : Char} {body cs : List Char}
    (hopen : (c = '"' || c = Char.ofNat 0x27 || c = '(') = true)
    (hclose : (if c = '(' then ')' else c) = close) (hbody : close ∉ body) :
    declarationWords (c :: (body ++ close :: cs)) =
      (c :: (body ++ [close])) :: declarationWords cs := by
  have hblank : Text.isAsciiBlank c = false := by
    simp only [Bool.or_eq_true, decide_eq_true_eq] at hopen
    rcases hopen with (rfl | rfl) | rfl <;> decide
  -- the body holds no closing character, so the taking stops at the one after it
  have htake : (body ++ close :: cs).takeWhile (· != close) = body := by
    rw [List.takeWhile_append_of_pos]
    · simp
    · intro d hd
      simp only [bne_iff_ne, ne_eq]
      rintro rfl
      exact hbody hd
  rw [declarationWords]
  simp only [hblank, Bool.false_eq_true, if_false, hopen, if_true, hclose, htake]
  rw [if_pos (by simp)]
  simp

/-- A word followed by a blank or by the end is read whole. -/
theorem declarationWords_word {w cs : List Char} (hw : Word w)
    (hnext : cs.head?.all Text.isAsciiBlank = true) :
    declarationWords (w ++ cs) = w :: declarationWords cs := by
  cases hw with
  | @name c rest hc =>
    simp only [List.all_cons, Bool.and_eq_true] at hc
    obtain ⟨hc0, hrest⟩ := hc
    obtain ⟨hblank, hparen, hdouble, hsingle⟩ := isNameChar_stops hc0
    -- the name's characters are all taken, and the blank after it stops the taking
    have htake : (rest ++ cs).takeWhile (fun d => !(Text.isAsciiBlank d || d = '(')) = rest := by
      rw [List.takeWhile_append_of_pos, takeWhile_of_blank_head hnext (fun d hd => by simp [hd]),
        List.append_nil]
      intro d hd
      obtain ⟨hdblank, hdparen, -⟩ := isNameChar_stops (List.all_eq_true.mp hrest d hd)
      simp [hdblank, hdparen]
    rw [List.cons_append, declarationWords]
    simp only [hblank, hparen, hdouble, hsingle, Bool.false_eq_true, if_false, Bool.or_false,
      decide_false]
    rw [htake, List.drop_left]
  | @group body hbody =>
    have hclose : ')' ∉ body := fun h => by
      simpa [isGroupChar] using List.all_eq_true.mp hbody _ h
    rw [List.cons_append, List.append_assoc, List.singleton_append]
    exact declarationWords_enclosed (by decide) (by decide) hclose
  | @literal q body hq hbody =>
    have hopen : (q = '"' || q = Char.ofNat 0x27 || q = '(') = true := by
      rw [show (q = '"' || q = Char.ofNat 0x27) = true from hq, Bool.true_or]
    have hclose : (if q = '(' then ')' else q) = q := by
      refine if_neg ?_
      rintro rfl
      exact absurd hq (by decide)
    rw [List.cons_append, List.append_assoc, List.singleton_append]
    exact declarationWords_enclosed hopen hclose hbody

theorem declarationWords_spaced {ws : List String} {cs : List Char} (h : Spaced ws cs) :
    (declarationWords cs).map String.ofList = ws := by
  induction h with
  | nil => simp [declarationWords]
  | blank hc _ ih =>
    rw [declarationWords]
    simpa [hc] using ih
  | word hw hnext _ ih =>
    rw [declarationWords_word hw hnext, List.map_cons, ih, String.ofList_toList]

theorem beq_eq_false_of_head {s t : String} (h : s.toList.head? ≠ t.toList.head?) :
    (s == t) = false := by
  rw [beq_eq_false_iff_ne]
  rintro rfl
  exact h rfl

theorem head_enclose (q : Quote) (body : String) : (q.enclose body).toList.head? = some q.char := by
  simp [Quote.enclose, String.toList_append]

theorem AttType.words_eq (t : AttType) : ∃ w ws, t.words = w :: ws ∧ (w == "ID") = t.isId ∧
    ∀ rest, (if w == "NOTATION" then (ws ++ rest).drop 1 else ws ++ rest) = rest := by
  cases t with
  | named name hname =>
    refine ⟨name, [], rfl, rfl, fun rest => ?_⟩
    simp [hname]
  | enumeration body =>
    refine ⟨"(" ++ body ++ ")", [], rfl, beq_eq_false_of_head (by simp), fun rest => ?_⟩
    rw [beq_eq_false_of_head (by simp)]
    rfl
  | formats body =>
    exact ⟨"NOTATION", ["(" ++ body ++ ")"], rfl, show ("NOTATION" == "ID") = false by decide,
      fun rest => rfl⟩

theorem DefaultDecl.words_eq (dd : DefaultDecl) : ∃ w ws, dd.words = w :: ws ∧
    ∀ rest, (if w == "#FIXED" then (ws ++ rest).drop 1 else ws ++ rest) = rest := by
  have hq : ∀ q : Quote, (q.enclose · == "#FIXED") = fun _ => false := by
    intro q
    funext body
    refine beq_eq_false_of_head ?_
    rw [head_enclose]
    cases q <;> decide
  cases dd with
  | required => exact ⟨"#REQUIRED", [], rfl, fun rest => by simp⟩
  | implied => exact ⟨"#IMPLIED", [], rfl, fun rest => by simp⟩
  | value q body =>
    refine ⟨q.enclose body, [], rfl, fun rest => ?_⟩
    rw [congrFun (hq q) body]
    rfl
  | fixed q body => exact ⟨"#FIXED", [q.enclose body], rfl, fun rest => rfl⟩

theorem attlistItems_cons (element : String) (a : AttDef) (fuel : Nat) (rest : List String)
    (d : Dtd) :
    attlistItems element (fuel + 1) (a.words ++ rest) d =
      attlistItems element fuel rest (if a.type.isId then d.declare element a.name else d) := by
  obtain ⟨w, ws, hw, hid, hskip⟩ := a.type.words_eq
  obtain ⟨v, vs, hv, hskip'⟩ := a.default.words_eq
  simp only [AttDef.words, hw, hv, List.cons_append, List.append_assoc]
  rw [attlistItems]
  simp only [hskip, hskip', hid]

theorem attlistItems_defs (element : String) (defs : List AttDef) (fuel : Nat)
    (hfuel : defs.length ≤ fuel) (d : Dtd) :
    attlistItems element fuel (defs.flatMap AttDef.words) d =
      (defs.filter (·.type.isId)).foldl (fun d a => d.declare element a.name) d := by
  induction defs generalizing fuel d with
  | nil => cases fuel <;> rfl
  | cons a defs ih =>
    obtain ⟨f, rfl⟩ : ∃ f, fuel = f + 1 := ⟨fuel - 1, by simp at hfuel; omega⟩
    rw [List.flatMap_cons, attlistItems_cons, ih f (by simp at hfuel; omega)]
    by_cases h : a.type.isId <;> simp [h]

theorem length_le_flatMap_words (defs : List AttDef) :
    defs.length ≤ (defs.flatMap AttDef.words).length := by
  induction defs with
  | nil => simp
  | cons a defs ih =>
    simp only [List.flatMap_cons, List.length_append, List.length_cons, AttDef.words]
    omega

theorem Dtd.addAttlist_encode {l : Attlist} {body : String} (hs : Spaced l.words body.toList)
    (d : Dtd) :
    d.addAttlist (Text.Utf8.encode body) = l.ids.foldl (fun d p => d.declare p.1 p.2) d := by
  rw [Dtd.addAttlist, Text.Utf8.decodeLossy_encode, declarationWords_spaced hs, Attlist.words]
  dsimp only
  rw [attlistItems_defs _ _ _ (length_le_flatMap_words l.defs), Attlist.ids, List.foldl_map]

theorem findClose_literal {q : UInt8} {lit : List UInt8} (hq : q ∉ lit) (bs : List UInt8) :
    findClose (some q) (lit ++ q :: bs) = (findClose none bs).map (· + (lit.length + 1)) := by
  induction lit with
  | nil => simp [findClose]
  | cons b lit ih =>
    simp only [List.mem_cons, not_or] at hq
    rw [List.cons_append, findClose, if_neg (Ne.symm hq.1), ih hq.2, Option.map_map]
    rfl

theorem findClose_paired {t : List UInt8} (ht : Paired t) (bs : List UInt8) :
    findClose none (t ++ bs) = (findClose none bs).map (· + t.length) := by
  induction ht with
  | nil => simp
  | byte hb _ ih =>
    simp only [isPlainByte, Bool.not_eq_true', Bool.or_eq_false_iff, decide_eq_false_iff_not]
      at hb
    rw [List.cons_append, findClose, if_neg (by simp [hb.1.1.1.1]), if_neg hb.1.1.2, ih,
      Option.map_map]
    rfl
  | @literal q lit rest hq hlit _ ih =>
    rw [List.cons_append, findClose, if_pos hq, List.append_assoc, List.cons_append,
      findClose_literal hlit, ih, Option.map_map, Option.map_map]
    congr 1
    funext k
    simp only [Function.comp, List.length_cons, List.length_append]
    omega

theorem subsetDeclarations_skip {b : UInt8} (hb : b ≠ 0x3C) (fuel : Nat) (bs : List UInt8)
    (d : Dtd) : subsetDeclarations fuel (b :: bs) d = subsetDeclarations fuel bs d := by
  cases fuel with
  | zero => rfl
  | succ f =>
    rw [subsetDeclarations, subsetDeclarations, List.dropWhile_cons_of_pos (by simpa using hb)]

theorem subsetDeclarations_of_not_mem {bs : List UInt8} (hbs : 0x3C ∉ bs) (fuel : Nat)
    (d : Dtd) : subsetDeclarations fuel bs d = d := by
  cases fuel with
  | zero => rfl
  | succ f =>
    have hnil : bs.dropWhile (· != 0x3C) = [] :=
      List.dropWhile_eq_nil_iff.mpr fun b hb => bne_iff_ne.mpr (ne_of_mem_of_not_mem hb hbs)
    rw [subsetDeclarations]
    simp [hnil]

theorem subsetDeclarations_comment {c : List UInt8} (hc : CommentText c) (fuel : Nat)
    (bs : List UInt8) (d : Dtd) :
    subsetDeclarations (fuel + 1) (ascii "<!--" ++ c ++ ascii "-->" ++ bs) d =
      subsetDeclarations fuel bs d := by
  have hopen : ascii "<!--" = 0x3C :: ascii "!--" := by decide
  have hstart : (ascii "<!--" ++ c ++ ascii "-->" ++ bs).dropWhile (· != 0x3C) =
      ascii "<!--" ++ c ++ ascii "-->" ++ bs := by
    rw [hopen]
    simp
  have hdrop : (ascii "<!--" ++ c ++ ascii "-->" ++ bs).drop 4 = c ++ ascii "-->" ++ bs := by
    rw [List.append_assoc, List.append_assoc, show 4 = (ascii "<!--").length by decide,
      List.drop_left, List.append_assoc]
  have hskip : (ascii "<!--" ++ c ++ ascii "-->" ++ bs).drop (c.length + 7) = bs := by
    rw [show c.length + 7 = 4 + (c.length + 3) by omega, ← List.drop_drop, hdrop,
      List.append_assoc, ← List.drop_drop, List.drop_left,
      show ascii "-->" = [0x2D, 0x2D, 0x3E] by decide]
    rfl
  rw [subsetDeclarations, hstart]
  simp only [List.append_assoc, isPrefixOf_append_self, if_true]
  rw [if_neg (by rw [hopen]; simp), ← List.append_assoc, ← List.append_assoc, hdrop,
    findSeq_comment hc]
  dsimp only
  rw [hskip]

theorem subsetDeclarations_markup {t : List UInt8} (ht : Paired t) (bs : List UInt8)
    (hc : (ascii "!--").isPrefixOf (t ++ 0x3E :: bs) = false) (fuel : Nat) (d : Dtd) :
    subsetDeclarations (fuel + 1) (0x3C :: (t ++ 0x3E :: bs)) d =
      subsetDeclarations fuel bs
        (if (ascii "!ATTLIST").isPrefixOf (t ++ 0x3E :: bs) then d.addAttlist (t.drop 8)
          else d) := by
  have hstop : findClose none (0x3C :: (t ++ 0x3E :: bs)) = some (t.length + 1) := by
    rw [findClose, if_neg (by decide), if_neg (by decide), findClose_paired ht, findClose]
    simp [isQuote]
  have hcomment : (ascii "<!--").isPrefixOf (0x3C :: (t ++ 0x3E :: bs)) = false := by
    rw [show ascii "<!--" = 0x3C :: ascii "!--" by decide]
    simpa [List.isPrefixOf] using hc
  have hattlist : (ascii "<!ATTLIST").isPrefixOf (0x3C :: (t ++ 0x3E :: bs)) =
      (ascii "!ATTLIST").isPrefixOf (t ++ 0x3E :: bs) := by
    rw [show ascii "<!ATTLIST" = 0x3C :: ascii "!ATTLIST" by decide]
    simp [List.isPrefixOf]
  rw [subsetDeclarations, List.dropWhile_cons_of_neg (by simp)]
  simp only [List.isEmpty_cons, Bool.false_eq_true, if_false, hcomment, hstop, Option.getD_some,
    hattlist]
  congr 1
  · simp
  · simp

/-- The declarations of a subset add their `ID` attributes in order, when no `<` follows the
subset. -/
theorem subsetDeclarations_subset {ls : List Attlist} {bs : List UInt8} (h : Subset ls bs)
    {rest : List UInt8} (hrest : 0x3C ∉ rest) (fuel : Nat) (hfuel : bs.length < fuel) (d : Dtd)
    (x : String) :
    (subsetDeclarations fuel (bs ++ rest) d).idAttribute x =
      (d.idAttribute x).or (declaredId ls x) := by
  induction h generalizing fuel d with
  | nil =>
    rw [List.nil_append, subsetDeclarations_of_not_mem hrest]
    simp [declaredId]
  | @blank b _ _ hb _ ih =>
    have hne : b ≠ 0x3C := by
      rintro rfl
      simp [Text.isXmlBlankByte] at hb
    rw [List.cons_append, subsetDeclarations_skip hne, ih fuel (by simp at hfuel; omega)]
  | comment hc _ ih =>
    obtain ⟨f, rfl⟩ : ∃ f, fuel = f + 1 := ⟨fuel - 1, by omega⟩
    have hlen : (ascii "<!--").length = 4 := by decide
    rw [List.append_assoc, subsetDeclarations_comment hc, ih f (by simp [hlen] at hfuel; omega)]
  | instruction hd _ ih =>
    obtain ⟨f, rfl⟩ : ∃ f, fuel = f + 1 := ⟨fuel - 1, by omega⟩
    have hlen : (ascii "<?").length = 2 := by decide
    rw [List.append_assoc, instruction_bytes,
      subsetDeclarations_markup (instruction_paired hd) _
        (instruction_mismatch (by decide) (by decide) _ _),
      instruction_mismatch (by decide) (by decide), if_neg Bool.false_ne_true,
      ih f (by simp at hfuel; omega)]
  | declaration hkw hbody _ ih =>
    obtain ⟨f, rfl⟩ : ∃ f, fuel = f + 1 := ⟨fuel - 1, by omega⟩
    rw [List.append_assoc, List.cons_append, declaration_bytes,
      subsetDeclarations_markup (declaration_paired hkw hbody) _
        (declaration_mismatch (by decide) hkw _ _),
      declaration_mismatch (by decide) hkw, if_neg Bool.false_ne_true,
      ih f (by simp at hfuel; omega)]
  | @attlist l body ls' bs' hs _ ih =>
    obtain ⟨f, rfl⟩ : ∃ f, fuel = f + 1 := ⟨fuel - 1, by omega⟩
    have hdrop : (ascii "!ATTLIST" ++ Text.Utf8.encode body).drop 8 = Text.Utf8.encode body := by
      rw [show 8 = (ascii "!ATTLIST").length by decide, List.drop_left]
    rw [List.append_assoc, List.cons_append, attlist_bytes,
      subsetDeclarations_markup (attlist_paired hs) _
        (attlist_mismatch (by decide) (by decide) _ _),
      if_pos (by rw [List.append_assoc]; exact isPrefixOf_append_self _ _), hdrop,
      Dtd.addAttlist_encode hs, ih f (by simp at hfuel; omega), Dtd.idAttribute_foldl_declare,
      Option.or_assoc]
    -- the declaration's attributes come before those of the declarations after it
    simp only [declaredId, List.flatMap_cons, List.find?_append, Option.map_or]

theorem Dtd.parse_idAttribute {ls : List Attlist} {content : List UInt8}
    (h : DoctypeContent ls content) (x : String) :
    (Dtd.parse content).idAttribute x = declaredId ls x := by
  cases h with
  | external _ hno =>
    have hpre : content.takeWhile (· != 0x5B) = content :=
      List.takeWhile_eq_self_iff.mpr fun b hb => bne_iff_ne.mpr (ne_of_mem_of_not_mem hb hno)
    rw [Dtd.parse]
    simp only [hpre, lt_self_iff_false, if_false]
    rfl
  | @internal head _ bs tail _ hno hs htail =>
    have hpre : (head ++ 0x5B :: (bs ++ 0x5D :: tail)).takeWhile (· != 0x5B) = head := by
      rw [List.takeWhile_append_of_pos fun b hb => bne_iff_ne.mpr (ne_of_mem_of_not_mem hb hno)]
      simp
    -- no `<` follows the subset: only its `]` and blanks
    have hrest : 0x3C ∉ 0x5D :: tail := by
      simp only [List.mem_cons, not_or]
      refine ⟨by decide, fun hmem => ?_⟩
      have hb := List.all_eq_true.mp htail _ hmem
      simp [Text.isXmlBlankByte] at hb
    have hdrop : (head ++ 0x5B :: (bs ++ 0x5D :: tail)).drop (head.length + 1) =
        bs ++ 0x5D :: tail := by
      rw [← List.drop_drop, List.drop_left, List.drop_one, List.tail_cons]
    rw [Dtd.parse]
    simp only [hpre, hdrop]
    rw [if_pos (by simp), subsetDeclarations_subset hs hrest _ (by simp)]
    exact Option.none_or

end Declarations

/-- The tokenizer and the DTD reader on a document type declaration written by the grammar: the
token ends at the declaration's own `>`, and the `ID` attribute of each element is the first one
declared for it, comments apart. -/
theorem doctype_subset_read {ls : List Attlist} {content : List UInt8}
    (h : DoctypeContent ls content) (pos : Nat) (after : List UInt8) :
    Token.scan pos (ascii "<!DOCTYPE" ++ content ++ 0x3E :: after) =
        .ok (⟨.doctype, pos, pos + 9 + content.length + 1, none, some content, pos + 9⟩,
          after) ∧
      ∀ element, (Dtd.parse content).idAttribute element = declaredId ls element :=
  ⟨scan_doctype h pos after, Dtd.parse_idAttribute h⟩

/-- The declaration of an element's attributes, after a comment that holds another and a
declaration of the element's content, with a literal that holds a `>`, then a processing
instruction whose literal holds a `]`. -/
theorem complex_subset_read :
    Token.scan 0 (ascii ("<!DOCTYPE doc [<!-- <!ATTLIST fake id ID #IMPLIED> -->" ++
        "<!ELEMENT doc (item)*><!ATTLIST item kind (a|b) \x27a\x27 ver CDATA #FIXED \"1>2\" " ++
        "ref ID #IMPLIED><?pi x=\"]\"?>]>")) =
      .ok (⟨.doctype, 0, 159, none,
        some (ascii (" doc [<!-- <!ATTLIST fake id ID #IMPLIED> -->" ++
        "<!ELEMENT doc (item)*><!ATTLIST item kind (a|b) \x27a\x27 ver CDATA #FIXED \"1>2\" " ++
        "ref ID #IMPLIED><?pi x=\"]\"?>]")), 9⟩, []) ∧
    ["item", "fake"].map (Dtd.parse (ascii (" doc [<!-- <!ATTLIST fake id ID #IMPLIED> -->" ++
        "<!ELEMENT doc (item)*><!ATTLIST item kind (a|b) \x27a\x27 ver CDATA #FIXED \"1>2\" " ++
        "ref ID #IMPLIED><?pi x=\"]\"?>]"))).idAttribute = [some "ref", none] := by
  set item : Attlist := ⟨"item", [⟨"kind", .enumeration "a|b", .value .single "a"⟩,
    ⟨"ver", .named "CDATA" (by decide), .fixed .double "1>2"⟩,
    ⟨"ref", .named "ID" (by decide), .implied⟩]⟩ with hitem
  have hwords : ∀ w ∈ item.words, Word w.toList := by
    simp only [item, Attlist.words, AttDef.words, AttType.words, DefaultDecl.words,
      List.flatMap_cons, List.flatMap_nil, List.cons_append, List.nil_append, List.append_nil,
      List.forall_mem_cons, List.not_mem_nil, false_imp_iff, forall_const, and_true]
    exact ⟨.of_name (by decide) (by decide), .of_name (by decide) (by decide),
      .of_enumeration (by decide), .of_literal _ (by decide), .of_name (by decide) (by decide),
      .of_name (by decide) (by decide), .of_name (by decide) (by decide), .of_literal _ (by decide),
      .of_name (by decide) (by decide), .of_name (by decide) (by decide),
      .of_name (by decide) (by decide)⟩
  have hbody : (" item kind (a|b) \x27a\x27 ver CDATA #FIXED \"1>2\" ref ID #IMPLIED").toList =
      item.words.flatMap (fun w => ' ' :: w.toList) := by
    rw [hitem]
    decide
  have hpi : Paired (ascii "pi x=\"]\"") := by
    rw [show ascii "pi x=\"]\"" = ascii "pi x=" ++ 0x22 :: ([0x5D] ++ 0x22 :: []) by decide]
    exact (Paired.of_plain (by decide)).append (.literal (by decide) (by decide) .nil)
  have hcontent : DoctypeContent [item] (ascii " doc " ++ 0x5B ::
      ((ascii "<!--" ++ ascii " <!ATTLIST fake id ID #IMPLIED> " ++ ascii "-->" ++
        (ascii ("<!" ++ "ELEMENT") ++ ascii " doc (item)*" ++ 0x3E ::
          (ascii "<!ATTLIST" ++
            Text.Utf8.encode
              " item kind (a|b) \x27a\x27 ver CDATA #FIXED \"1>2\" ref ID #IMPLIED" ++
            0x3E :: (ascii "<?" ++ ascii "pi x=\"]\"" ++ ascii "?>" ++ [])))) ++ 0x5D :: [])) :=
    .internal (.of_plain (by decide)) (by decide)
      (.comment (by decide) (.declaration (by decide) (.of_plain (by decide))
        (.attlist (hbody ▸ .of_words hwords) (.instruction hpi .nil)))) (by decide)
  have hcontent' :
      DoctypeContent [item] (ascii (" doc [<!-- <!ATTLIST fake id ID #IMPLIED> -->" ++
      "<!ELEMENT doc (item)*><!ATTLIST item kind (a|b) \x27a\x27 ver CDATA #FIXED \"1>2\" " ++
      "ref ID #IMPLIED><?pi x=\"]\"?>]")) := by
    convert hcontent using 1
    decide +kernel
  obtain ⟨hscan, hids⟩ := doctype_subset_read hcontent' 0 []
  have hfull : ascii ("<!DOCTYPE doc [<!-- <!ATTLIST fake id ID #IMPLIED> -->" ++
        "<!ELEMENT doc (item)*><!ATTLIST item kind (a|b) \x27a\x27 ver CDATA #FIXED \"1>2\" " ++
        "ref ID #IMPLIED><?pi x=\"]\"?>]>") =
      ascii "<!DOCTYPE" ++ ascii (" doc [<!-- <!ATTLIST fake id ID #IMPLIED> -->" ++
        "<!ELEMENT doc (item)*><!ATTLIST item kind (a|b) \x27a\x27 ver CDATA #FIXED \"1>2\" " ++
        "ref ID #IMPLIED><?pi x=\"]\"?>]") ++ 0x3E :: [] := by
    decide +kernel
  have hlen : (ascii (" doc [<!-- <!ATTLIST fake id ID #IMPLIED> -->" ++
      "<!ELEMENT doc (item)*><!ATTLIST item kind (a|b) \x27a\x27 ver CDATA #FIXED \"1>2\" " ++
      "ref ID #IMPLIED><?pi x=\"]\"?>]")).length = 149 := by
    decide +kernel
  refine ⟨by rw [hfull, hscan, hlen], ?_⟩
  rw [List.map_cons, List.map_cons, List.map_nil, hids, hids, hitem]
  decide

/-- A quote that stands alone in a processing instruction opens a literal that never closes. The
DTD reader takes the rest of the subset for the instruction and misses the declaration after it,
and the tokenizer finds no end to the document type declaration. -/
theorem instruction_quote_hides_subset :
    (Dtd.parse (ascii " r [<?pi don\x27t?><!ATTLIST item key ID #REQUIRED>]")).idAttribute
        "item" = none ∧
      Token.scan 0 (ascii "<!DOCTYPE r [<?pi don\x27t?>]>") =
        .error ⟨.unterminatedDoctype, 0⟩ := by
  refine ⟨by decide, ?_⟩
  have hsplit : ascii "<!DOCTYPE r [<?pi don\x27t?>]>" = ascii "<!DOCTYPE" ++
      (ascii " r " ++ 0x5B :: 0x3C :: (ascii "?pi don" ++ 0x27 :: ascii "t?>]>")) := by
    decide
  rw [hsplit, scan_doctype_open, scanDoctype, List.drop_left' (by decide)]
  rw [doctypeClose_paired (.of_plain (by decide)), doctypeClose_open,
    doctypeClose_lt _ (by decide), doctypeClose_paired (.of_plain (by decide)),
    doctypeClose_quote (by decide), doctypeClose_unclosed (by decide)]

end XmlPointer.Markup
