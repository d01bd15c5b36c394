import Mathlib
import XmlPointer.Proofs.Build
import XmlPointer.Document.Printer

/-! # The namespaces a build assigns

A build keeps one scope per open element, holding the declarations of its start tag. The scopes
it holds are always those of the open elements' declarations, so the namespace of an element, and
of each of its prefixed attributes, is its prefix resolved among the declarations of the element
and of its element ancestors: the nearest element that declares the prefix counts, and on that
element its last declaration. A declaration binds the part of its name after the first colon. -/
namespace XmlPointer

open Document

/-! ## Declaration names -/

def declarationPrefix (name : String) : String :=
  String.ofList ((name.toList.dropWhile (· ≠ ':')).drop 1)

def declarationName (p : String) : String :=
  if p = "" then "xmlns" else "xmlns:" ++ p

def IsDeclarationName (n : String) : Prop :=
  n = "xmlns" ∨ ∃ q, n = "xmlns:" ++ q

theorem declarationPrefix_xmlns : declarationPrefix "xmlns" = "" := by decide

@[simp] theorem declarationPrefix_xmlns_append (q : String) :
    declarationPrefix ("xmlns:" ++ q) = q := by
  have h : "xmlns:".toList = ['x', 'm', 'l', 'n', 's', ':'] := by decide
  simp [declarationPrefix, String.toList_append, h]

theorem declarationPrefix_declarationName (p : String) :
    declarationPrefix (declarationName p) = p := by
  by_cases hp : p = ""
  · simp [declarationName, hp, declarationPrefix_xmlns]
  · simp [declarationName, hp]

theorem declarationPrefix_eq_iff {n p : String} (hn : IsDeclarationName n) (hne : n ≠ "xmlns:") :
    declarationPrefix n = p ↔ n = declarationName p := by
  refine ⟨fun h => ?_, fun h => h ▸ declarationPrefix_declarationName p⟩
  rcases hn with rfl | ⟨q, rfl⟩
  · rw [declarationPrefix_xmlns] at h
    simp [declarationName, ← h]
  · rw [declarationPrefix_xmlns_append] at h
    subst h
    have hq : q ≠ "" := by
      rintro rfl
      exact hne String.append_empty
    simp [declarationName, hq]

theorem Text.Utf8.decodeLossy_ascii {c : UInt8} (hc : c < 0x80) (rest : List UInt8) :
    Text.Utf8.decodeLossy (c :: rest) = Char.ofNat c.toNat :: Text.Utf8.decodeLossy rest := by
  have hw : Text.Utf8.width c = 1 := by simp [Text.Utf8.width, hc]
  rw [Text.Utf8.decodeLossy]
  simp [Text.Utf8.readUnit, hw]

theorem Text.Utf8.decodeLossy_ascii_append :
    ∀ (cs : List Char), (∀ c ∈ cs, c.toNat < 0x80) → ∀ rest : List UInt8,
      Text.Utf8.decodeLossy (cs.map Char.toUInt8 ++ rest) = cs ++ Text.Utf8.decodeLossy rest
  | [], _, rest => rfl
  | c :: cs, h, rest => by
    have hc : c.toNat < 0x80 := h c (by simp)
    have hb : c.toUInt8.toNat = c.toNat := by
      rw [← Char.toUInt8_val, UInt32.toNat_toUInt8]
      exact Nat.mod_eq_of_lt (by simp only [Char.toNat] at hc; omega)
    have hlt : c.toUInt8 < 0x80 := by
      rw [UInt8.lt_iff_toNat_lt, hb]
      exact hc
    rw [List.map_cons, List.cons_append, decodeLossy_ascii hlt,
      decodeLossy_ascii_append cs (fun c' hc' => h c' (List.mem_cons_of_mem c hc')) rest, hb,
      Char.ofNat_toNat, List.cons_append]

theorem Builder.text_ascii_append {s : String} (hs : ∀ c ∈ s.toList, c.toNat < 0x80)
    (rest : List UInt8) : Builder.text (Markup.ascii s ++ rest) = s ++ Builder.text rest := by
  simp only [Builder.text, Text.Utf8.lossy, Markup.ascii,
    Text.Utf8.decodeLossy_ascii_append _ hs, String.ofList_append, String.ofList_toList]

theorem Markup.splitName_eq_some {name pre : List UInt8} (h : (Markup.splitName name).1 = some pre) :
    name = pre ++ 0x3A :: (Markup.splitName name).2 := by
  unfold Markup.splitName at h ⊢
  dsimp only at h ⊢
  split_ifs at h ⊢ with hlt
  cases h
  have hsplit := List.takeWhile_append_dropWhile (p := (· != (0x3A : UInt8))) (l := name)
  cases hd : name.dropWhile (· != 0x3A) with
  | nil =>
    rw [hd, List.append_nil] at hsplit
    rw [hsplit] at hlt
    exact absurd hlt (Nat.lt_irrefl _)
  | cons c r =>
    -- the first byte the prefix stops at is the colon
    have hc : c = 0x3A := by
      have := List.head_dropWhile_not (p := (· != (0x3A : UInt8))) (l := name) (by simp [hd])
      simpa [hd] using this
    have hdrop : (name.takeWhile (· != 0x3A) ++ name.dropWhile (· != 0x3A)).drop
        (name.takeWhile (· != 0x3A)).length = c :: r := by
      rw [List.drop_left, hd]
    rw [hsplit] at hdrop
    rw [← List.drop_drop, hdrop, hc]
    simpa [hd, hc] using hsplit.symm

theorem Attr.Stores.declaration {a : Attr} {m : Markup.Attribute} (h : Attr.Stores a m)
    (hd : m.isDeclaration = true) :
    IsDeclarationName a.name ∧
      declarationPrefix a.name = if m.prefixPart.isSome then Builder.text m.localPart else "" := by
  obtain ⟨hname, -, -, -, -⟩ := h
  unfold Markup.Attribute.isDeclaration at hd
  rcases Bool.or_eq_true_iff.mp hd with hn | hp
  · -- the name `xmlns` binds the default namespace
    have hn : m.name = Markup.ascii "xmlns" := by simpa using hn
    have hpre : m.prefixPart = none := by
      rw [Markup.Attribute.prefixPart, hn]
      decide
    have htext : Builder.text m.name = "xmlns" := by
      rw [hn, ← List.append_nil (Markup.ascii "xmlns"), Builder.text_ascii_append (by simp)]
      simp [Builder.text, Text.Utf8.lossy, Text.Utf8.decodeLossy]
    rw [hname, htext, hpre]
    exact ⟨.inl rfl, declarationPrefix_xmlns⟩
  · -- a name `xmlns:q` binds what follows its first colon
    have hp : m.prefixPart = some (Markup.ascii "xmlns") := by simpa using hp
    have hcolon : Markup.ascii "xmlns" ++ [0x3A] = Markup.ascii "xmlns:" := by decide
    have htext : Builder.text m.name = "xmlns:" ++ Builder.text m.localPart := by
      calc Builder.text m.name = Builder.text (Markup.ascii "xmlns" ++ 0x3A :: m.localPart) :=
            congrArg Builder.text (Markup.splitName_eq_some hp)
        _ = "xmlns:" ++ Builder.text m.localPart := by
          rw [← List.singleton_append, ← List.append_assoc, hcolon,
            Builder.text_ascii_append (by simp)]
    rw [hname, htext, hp]
    exact ⟨.inr ⟨_, rfl⟩, by simp⟩

def declarationBinding (b : String × String) : String × String :=
  (declarationPrefix b.1, b.2)

/-! ## Scopes -/

namespace Scopes

def enter (s : Scopes) (decls : List (String × String)) : Scopes :=
  decls.foldl (fun s b => s.declare b.1 b.2) s.push

def lookup (s : Scopes) (p : String) : Option String :=
  (s.bindings.find? (·.prefixName == p)).map (·.uri)

def lastBinding (decls : List (String × String)) (p : String) : Option String :=
  if p = "xml" ∨ p = "xmlns" then none else (decls.reverse.find? (·.1 == p)).map (·.2)

def Agree (s t : Scopes) : Prop :=
  ∀ p, s.resolve p = t.resolve p

def Bounded (s : Scopes) : Prop :=
  ∀ b ∈ s.bindings, b.depth.toNat ≤ s.depth.toNat

theorem toNat_add_one {x : UInt16} (hx : x.toNat < 65535) : (x + 1).toNat = x.toNat + 1 := by
  rw [UInt16.toNat_add]
  simp only [UInt16.toNat_one]
  omega

variable {s t : Scopes} {ds : List (String × String)} {p : String}

theorem resolve_eq (s : Scopes) (p : String) :
    s.resolve p = if p.isEmpty then some ((s.lookup p).getD "")
      else (s.lookup p).filter (!·.isEmpty) := rfl

@[simp] theorem lookup_push : s.push.lookup p = s.lookup p := rfl

theorem lookup_declare (q u : String) :
    (s.declare q u).lookup p =
      if q = p ∧ ¬(q = "xml" ∨ q = "xmlns") then some u else s.lookup p := by
  by_cases hq : q = "xml" ∨ q = "xmlns"
  · have hb : (q = "xml" || q = "xmlns") = true := by simpa using hq
    simp [declare, hb, hq]
  · have hb : (q = "xml" || q = "xmlns") = false := by simpa using hq
    by_cases hqp : q = p
    · subst hqp
      simp [declare, hq, lookup]
    · simp [declare, hb, hqp, lookup]

@[simp] theorem lastBinding_nil : lastBinding [] p = none := by
  simp [lastBinding]

theorem lastBinding_append (ds ds' : List (String × String)) :
    lastBinding (ds ++ ds') p = (lastBinding ds' p).or (lastBinding ds p) := by
  unfold lastBinding
  split_ifs
  · rfl
  · simp [List.find?_append, Option.map_or]

theorem lastBinding_singleton (q u : String) :
    lastBinding [(q, u)] p = if q = p ∧ ¬(q = "xml" ∨ q = "xmlns") then some u else none := by
  unfold lastBinding
  by_cases hqp : q = p
  · subst hqp
    split_ifs <;> simp_all
  · have : (q == p) = false := by simpa using hqp
    simp [this, hqp]

theorem lookup_enter (s : Scopes) (ds : List (String × String)) (p : String) :
    (s.enter ds).lookup p = (lastBinding ds p).or (s.lookup p) := by
  -- the declarations are made one by one, from the pushed scope on
  suffices h : ∀ t : Scopes, (ds.foldl (fun s b => s.declare b.1 b.2) t).lookup p =
      (lastBinding ds p).or (t.lookup p) by
    exact h s.push
  induction ds using List.reverseRecOn with
  | nil => intro t; simp
  | append_singleton ds b ih =>
    intro t
    obtain ⟨q, u⟩ := b
    rw [List.foldl_append, List.foldl_cons, List.foldl_nil, lookup_declare, lastBinding_append,
      lastBinding_singleton]
    split_ifs <;> simp [ih]

theorem Agree.enter (h : Agree s t) (ds : List (String × String)) :
    Agree (s.enter ds) (t.enter ds) := by
  intro p
  rw [resolve_eq, resolve_eq, lookup_enter, lookup_enter]
  cases lastBinding ds p with
  | none => simpa [resolve_eq] using h p
  | some u => rfl

theorem Agree.refl (s : Scopes) : Agree s s := fun _ => rfl

theorem Agree.symm (h : Agree s t) : Agree t s := fun p => (h p).symm

theorem Agree.trans {u : Scopes} (h : Agree s t) (h' : Agree t u) : Agree s u :=
  fun p => (h p).trans (h' p)

theorem agree_push : Agree s.push s := fun _ => rfl

theorem agree_of_lookup
    (h : ∀ p, (s.lookup p).filter (!·.isEmpty) = (t.lookup p).filter (!·.isEmpty)) : Agree s t := by
  have hdefault : ∀ o : Option String, (o.filter (!·.isEmpty)).getD "" = o.getD "" := by
    intro o
    cases o with
    | none => rfl
    | some u => by_cases hu : u.isEmpty <;> simp_all [Option.filter]
  intro p
  rw [resolve_eq, resolve_eq]
  split_ifs
  · rw [← hdefault (s.lookup p), h p, hdefault]
  · exact h p

theorem enter_bindings (s : Scopes) (ds : List (String × String)) :
    ∃ added : List Binding, (s.enter ds).bindings = added ++ s.bindings ∧
      (∀ b ∈ added, b.depth = s.depth + 1) ∧ (s.enter ds).depth = s.depth + 1 := by
  suffices h : ∀ t : Scopes, ∃ added : List Binding,
      (ds.foldl (fun s b => s.declare b.1 b.2) t).bindings = added ++ t.bindings ∧
        (∀ b ∈ added, b.depth = t.depth) ∧ (ds.foldl (fun s b => s.declare b.1 b.2) t).depth = t.depth by
    exact h s.push
  induction ds with
  | nil => exact fun t => ⟨[], rfl, by simp, rfl⟩
  | cons b rest ih =>
    intro t
    simp only [List.foldl_cons]
    obtain ⟨added, hb, hd, hdepth⟩ := ih (t.declare b.1 b.2)
    have hdt : (t.declare b.1 b.2).depth = t.depth := by
      unfold declare
      split <;> rfl
    by_cases hx : (b.1 = "xml" || b.1 = "xmlns") = true
    · have ht : t.declare b.1 b.2 = t := by simp [declare, hx]
      rw [ht] at hb hd hdepth ⊢
      exact ⟨added, hb, hd, hdepth⟩
    · have ht : (t.declare b.1 b.2).bindings = ⟨b.1, b.2, t.depth⟩ :: t.bindings := by
        simp [declare, hx]
      refine ⟨added ++ [⟨b.1, b.2, t.depth⟩], by simp [hb, ht], ?_, by rw [hdepth, hdt]⟩
      intro c hc
      rcases List.mem_append.mp hc with hc | hc
      · rw [hd c hc, hdt]
      · simp_all

theorem depth_enter (s : Scopes) (ds : List (String × String)) :
    (s.enter ds).depth = s.depth + 1 := by
  obtain ⟨-, -, -, hdepth⟩ := enter_bindings s ds
  exact hdepth

theorem bounded_initial : initial.Bounded := by
  simp [Bounded, initial]

theorem Bounded.enter (h : s.Bounded) (hs : s.depth.toNat < 65535) (ds : List (String × String)) :
    (s.enter ds).Bounded := by
  obtain ⟨added, hb, hd, hdepth⟩ := enter_bindings s ds
  intro c hc
  rw [hb] at hc
  rw [hdepth, toNat_add_one hs]
  rcases List.mem_append.mp hc with hc | hc
  · rw [hd c hc, toNat_add_one hs]
  · exact Nat.le_succ_of_le (h c hc)

theorem pop_enter (h : s.Bounded) (hs : s.depth.toNat < 65535) (ds : List (String × String)) :
    (s.enter ds).pop = s := by
  obtain ⟨added, hb, hd, hdepth⟩ := enter_bindings s ds
  have hsucc := toNat_add_one hs
  have hdrop : (added ++ s.bindings).dropWhile
      (fun b => decide (b.depth ≥ s.depth + 1) && decide (b.depth > 0)) = s.bindings := by
    rw [List.dropWhile_append_of_pos (fun c hc => by
      simp [hd c hc, UInt16.lt_iff_toNat_lt, hsucc])]
    refine List.dropWhile_eq_self_iff.mpr fun hl => ?_
    have := h _ (List.getElem_mem hl)
    simp only [Bool.and_eq_true, decide_eq_true_eq, not_and, ge_iff_le, UInt16.le_iff_toNat_le,
      hsucc]
    omega
  have hne : s.depth + 1 ≠ 0 := fun h0 => by
    have := congrArg UInt16.toNat h0
    rw [hsucc] at this
    simp at this
  simp only [pop, hb, hdepth, hdrop, if_neg hne, UInt16.add_sub_cancel]

end Scopes

/-! ## The scopes of nested elements -/

namespace Document

def bindings (d : Document) (x : Nat) : List (String × String) :=
  (d.declarations x).map declarationBinding

def scopesOver (d : Document) (base : Scopes) (chain : List Nat) : Scopes :=
  chain.foldr (fun x s => s.enter (d.bindings x)) base

def scopesOf (d : Document) (chain : List Nat) : Scopes :=
  d.scopesOver Scopes.initial chain

@[simp] theorem scopesOf_nil (d : Document) : d.scopesOf [] = Scopes.initial := rfl

@[simp] theorem scopesOf_cons (d : Document) (x : Nat) (chain : List Nat) :
    d.scopesOf (x :: chain) = (d.scopesOf chain).enter (d.bindings x) := rfl

theorem scopesOver_append (d : Document) (base : Scopes) (l l' : List Nat) :
    d.scopesOver base (l ++ l') = d.scopesOver (d.scopesOver base l') l :=
  List.foldr_append

def nearestBinding (d : Document) (chain : List Nat) (p : String) : Option String :=
  chain.foldr (fun x o => (Scopes.lastBinding (d.bindings x) p).or o) none

theorem lookup_scopesOver (d : Document) (base : Scopes) (chain : List Nat) (p : String) :
    (d.scopesOver base chain).lookup p = (d.nearestBinding chain p).or (base.lookup p) := by
  induction chain with
  | nil => rfl
  | cons x chain ih =>
    change ((d.scopesOver base chain).enter (d.bindings x)).lookup p = _
    rw [Scopes.lookup_enter, ih]
    simp only [nearestBinding, List.foldr_cons, Option.or_assoc]

theorem agree_scopesOver {s t : Scopes} (h : s.Agree t) (d : Document) (chain : List Nat) :
    (d.scopesOver s chain).Agree (d.scopesOver t chain) := by
  induction chain with
  | nil => exact h
  | cons x chain ih => exact ih.enter _

theorem depth_scopesOf (d : Document) (chain : List Nat) :
    (d.scopesOf chain).depth = UInt16.ofNat chain.length := by
  induction chain with
  | nil => rfl
  | cons x chain ih =>
    rw [scopesOf_cons, Scopes.depth_enter, ih, List.length_cons, UInt16.ofNat_add]
    rfl

theorem bounded_scopesOf (d : Document) (chain : List Nat) (hlen : chain.length < 65536) :
    (d.scopesOf chain).Bounded := by
  induction chain with
  | nil => exact Scopes.bounded_initial
  | cons x chain ih =>
    have hl : chain.length < 65535 := by simp at hlen; omega
    refine (ih (by omega)).enter ?_ _
    rw [depth_scopesOf, UInt16.toNat_ofNat_of_lt' (by simp [UInt16.size]; omega)]
    exact hl

theorem scopesOf_append_of_attributes (d : Document) {x : Nat} (hx : d.attributes x = [])
    (chain : List Nat) : (d.scopesOf (chain ++ [x])).Agree (d.scopesOf chain) := by
  have hbase : (d.scopesOf [x]).Agree Scopes.initial := by
    simp only [scopesOf_cons, scopesOf_nil, bindings, declarations, hx, List.filter_nil,
      List.map_nil]
    exact Scopes.agree_push
  simpa only [scopesOf, scopesOver_append] using agree_scopesOver hbase d chain

end Document

/-- A node's namespace, and each of its prefixed attributes' namespace, is what its prefix
resolves to in `s`, or no namespace where it resolves to none. -/
def Node.NamespacesIn (n : Node) (s : Scopes) : Prop :=
  n.nsUri = (s.resolve n.prefixName).getD "" ∧
    ∀ a ∈ n.attributes.toList, a.nsUri =
      if a.isDeclaration || a.prefixName.isEmpty then "" else (s.resolve a.prefixName).getD ""

theorem Node.NamespacesIn.of_agree {n : Node} {s t : Scopes} (h : n.NamespacesIn s)
    (hst : s.Agree t) : n.NamespacesIn t := by
  obtain ⟨hn, ha⟩ := h
  refine ⟨by rw [hn, hst], fun a hmem => by rw [ha a hmem, hst]⟩

/-! ## The scopes of a build -/

namespace Builder

variable {b b' : Builder}

theorem declareAll_eq (scopes : Scopes) (attrs : List Markup.Attribute) :
    declareAll scopes attrs = scopes.enter ((attrs.filter (·.isDeclaration)).map fun a =>
      (if a.prefixPart.isSome then text a.localPart else "", text a.value)) := by
  simp only [declareAll, Scopes.enter, List.foldl_map]

theorem bindings_of_stores : ∀ {attrs : List Attr} {tagAttrs : List Markup.Attribute},
    List.Forall₂ Attr.Stores attrs tagAttrs →
      (attrs.filter (·.isDeclaration)).map (fun a => (declarationPrefix a.name, a.value)) =
        (tagAttrs.filter (·.isDeclaration)).map fun m =>
          (if m.prefixPart.isSome then text m.localPart else "", text m.value)
  | [], [], .nil => rfl
  | a :: as, m :: ms, .cons h hs => by
    have hdecl : a.isDeclaration = m.isDeclaration := h.2.2.2.2
    by_cases hd : m.isDeclaration = true
    · simp [hd, hdecl, (h.declaration hd).2, h.2.2.2.1, bindings_of_stores hs]
    · simp [hd, hdecl, bindings_of_stores hs]

theorem declarationNames_of_stores {attrs : List Attr} {tagAttrs : List Markup.Attribute}
    (h : List.Forall₂ Attr.Stores attrs tagAttrs) :
    ∀ a ∈ attrs, a.isDeclaration = true → IsDeclarationName a.name := by
  induction h with
  | nil => simp
  | cons ha _ ih =>
    intro x hx hd
    rcases List.mem_cons.mp hx with rfl | hx
    · exact (ha.declaration (ha.2.2.2.2 ▸ hd)).1
    · exact ih x hx hd

theorem resolve_eq_ok {scopes : Scopes} {pre : String} {offset : Nat} {ns : String}
    (h : b.resolve scopes pre offset = .ok ns) : ns = (scopes.resolve pre).getD "" := by
  unfold Builder.resolve at h
  split at h
  · rename_i uri huri
    cases h
    simp [huri]
  · rename_i hnone
    split at h
    · cases h
    · cases h
      simp [hnone]

/-- A stored attribute's namespace is its prefix resolved in the element's scopes, or none for a
declaration or an unprefixed name. -/
theorem storeAttributes_namespaces {scopes : Scopes} {element : String} {owner offset : Nat} :
    ∀ {attrs : List Markup.Attribute} {ids : List (String × Nat)} {stored : List Attr}
      {ids' : List (String × Nat)},
      b.storeAttributes scopes element owner offset attrs ids = .ok (stored, ids') →
      ∀ a ∈ stored, a.nsUri =
        if a.isDeclaration || a.prefixName.isEmpty then "" else (scopes.resolve a.prefixName).getD ""
  | [], _, _, _, h => by
    simp only [storeAttributes, Except.ok.injEq, Prod.mk.injEq] at h
    rw [← h.1]
    simp
  | m :: rest, ids, stored, ids', h => by
    unfold storeAttributes at h
    dsimp only at h
    split at h
    · cases h
    · rename_i ns hns
      split at h
      · cases h
      · rename_i attrs ids'' hrest
        simp only [Except.ok.injEq, Prod.mk.injEq] at h
        rw [← h.1]
        intro a ha
        rcases List.mem_cons.mp ha with rfl | ha
        · show ns = _
          by_cases hc : (m.isDeclaration || ((m.prefixPart.map text).getD "").isEmpty) = true
          · rw [if_pos hc] at hns
            cases hns
            simp only [hc, if_true]
          · rw [if_neg hc] at hns
            simp only [hc, resolve_eq_ok hns, Bool.false_eq_true, if_false]
        · exact storeAttributes_namespaces hrest a ha

theorem openElement_namespaces {tag : Markup.StartTag} {offset : Nat} {empty : Bool}
    (h : b.openElement tag offset empty = .ok b') :
    ∃ node : Node, node.kind = .element ∧ node.parent = some b.parent ∧
      List.Forall₂ Attr.Stores node.attributes.toList tag.attributes ∧
      node.NamespacesIn (declareAll b.scopes tag.attributes) ∧ b'.nodes = (b.append node).nodes ∧
      b'.stack = (if empty then b.stack else b.nodes.size :: b.stack) ∧
      b'.scopes = if empty then (declareAll b.scopes tag.attributes).pop
        else declareAll b.scopes tag.attributes := by
  obtain ⟨ns, attrs, ids, hres, hst, rfl⟩ := openElement_eq_ok_elim h
  refine ⟨_, rfl, rfl, by simpa [Node.unlinked] using storeAttributes_stores hst,
    ⟨resolve_eq_ok hres, ?_⟩, rfl, rfl, rfl⟩
  simpa [Node.unlinked] using storeAttributes_namespaces hst

theorem OpenPath.lt_size {d : Document} : ∀ {l : List Nat}, OpenPath d l → ∀ x ∈ l, x < d.size
  | [], _ => by simp
  | s :: rest, ⟨hk, _, hrest⟩ => by
    intro x hx
    rcases List.mem_cons.mp hx with rfl | hx
    · obtain ⟨n, hn, -⟩ := Option.map_eq_some_iff.mp hk
      exact lt_size_of_node? hn
    · exact hrest.lt_size x hx

section Append

variable {n : Node} (hp : b.parent < b.nodes.size)
  (hl : ∀ l, b.arena.lastChild? b.parent = some l → b.parent < l ∧ l < b.nodes.size)
include hp hl

theorem bindings_append_self :
    (b.append n).arena.bindings b.nodes.size =
      if n.kind = .element then
        (n.attributes.toList.filter (·.isDeclaration)).map fun a => (declarationPrefix a.name, a.value)
      else [] := by
  have hnode : (b.append n).arena.node? b.nodes.size =
      some { n with prevSibling := (b.arena.lastChild? b.parent).or n.prevSibling } := by
    rw [node?_append n hp hl, if_pos rfl]
  by_cases hk : n.kind = .element <;>
    simp [Document.bindings, Document.declarations, Document.attributes, declarationBinding, hnode, hk]

omit hp hl in
theorem lt_size_of_node?_append {x : Nat} {n' : Node} (hx : (b.append n).arena.node? x = some n')
    (hne : x ≠ b.nodes.size) : x < b.nodes.size := by
  have := lt_size_of_node? hx
  simp only [arena_size, append_nodes_size] at this
  omega

theorem scopesOf_append : ∀ {l : List Nat}, (∀ x ∈ l, x < b.nodes.size) →
    (b.append n).arena.scopesOf l = b.arena.scopesOf l
  | [], _ => rfl
  | x :: l, hlt => by
    have hx : (b.append n).arena.bindings x = b.arena.bindings x := by
      simp only [Document.bindings, Document.declarations,
        attributes_append hp hl (hlt x (by simp))]
    rw [scopesOf_cons, scopesOf_cons, hx, scopesOf_append (fun y hy => hlt y (by simp [hy]))]

end Append

/-! ## The invariant of the scopes -/

def ScopesFit (b : Builder) : Prop :=
  b.scopes = b.arena.scopesOf b.stack

/-- Every element of a build has its declarations under names a build gives them, and its
namespaces from the scopes of a chain of open elements it is the innermost of. -/
def NamespacesFit (b : Builder) : Prop :=
  ∀ x n, b.arena.node? x = some n → n.kind = .element →
    (∀ a ∈ n.attributes.toList, a.isDeclaration = true → IsDeclarationName a.name) ∧
      ∃ l, OpenPath b.arena (x :: l) ∧ n.NamespacesIn (b.arena.scopesOf (x :: l))

def Shallow (b : Builder) : Prop :=
  ∀ x < b.nodes.size, (b.arena.ancestors x).length < 65536

theorem Shallow.of_step (h : Inv b) {offset : Nat} {ev : Markup.Event}
    (hs : b.step offset ev = .ok b') (hb' : Shallow b') : Shallow b := by
  obtain ⟨hle, hpar⟩ := h.step_keeps hs
  intro x hx
  have hanc := h.arena.ancestors_eq_of_parent? (h.step hs).arena x
    fun m hm => hpar m (by omega)
  rw [← hanc]
  exact hb' x (by omega)

theorem Shallow.of_run : ∀ {evs : List (Nat × Markup.Event)} {c c' : Builder}, Inv c →
    c.run evs = .ok c' → Shallow c' → Shallow c
  | [], _, _, _, hrun, hc' => by
    cases hrun
    exact hc'
  | (offset, ev) :: rest, c, c', h, hrun, hc' => by
    simp only [Builder.run] at hrun
    split at hrun
    · cases hrun
    · rename_i c1 hstep
      exact Shallow.of_step h hstep (Shallow.of_run (h.step hstep) hrun hc')

theorem Inv.stack_length_lt (h : Inv b) (hb : Shallow b) : b.stack.length < 65536 := by
  cases hst : b.stack with
  | nil => simp
  | cons s rest =>
    have hpath := h.path
    rw [hst] at hpath
    have hlen := hb s (hpath.lt_size s (by simp))
    rw [hpath.ancestors_eq h.arena, List.length_append, List.length_singleton] at hlen
    simpa using hlen

theorem scopesOf_open (h : Inv b) (hs : ScopesFit b) {tag : Markup.StartTag} {node : Node}
    (hk : node.kind = .element)
    (hstore : List.Forall₂ Attr.Stores node.attributes.toList tag.attributes) :
    (b.append node).arena.scopesOf (b.nodes.size :: b.stack) = declareAll b.scopes tag.attributes := by
  rw [scopesOf_cons, bindings_append_self h.parent_lt_size h.lastChild_lt, if_pos hk,
    bindings_of_stores hstore, scopesOf_append h.parent_lt_size h.lastChild_lt h.path.lt_size, ← hs,
    declareAll_eq]

theorem ScopesFit.popElement (hs : ScopesFit b) (hlen : b.stack.length < 65536) :
    ScopesFit b.popElement := by
  unfold ScopesFit at hs ⊢
  unfold Builder.popElement
  split
  · rename_i s rest hst
    rw [hst, scopesOf_cons] at hs
    rw [hst, List.length_cons] at hlen
    have hdepth : (b.arena.scopesOf rest).depth.toNat < 65535 := by
      rw [depth_scopesOf, UInt16.toNat_ofNat_of_lt' (by simp [UInt16.size]; omega)]
      omega
    change b.scopes.pop = b.arena.scopesOf rest
    rw [hs, Scopes.pop_enter (bounded_scopesOf _ _ (by omega)) hdepth]
  · exact hs

theorem ScopesFit.popMany : ∀ (l : List Nat) {c : Builder}, ScopesFit c →
    c.stack.length < 65536 → ScopesFit (l.foldl (fun b _ => b.popElement) c)
  | [], _, hs, _ => hs
  | _ :: l, c, hs, hlen => by
    have hpop : c.popElement.stack.length ≤ c.stack.length := by
      unfold Builder.popElement
      split <;> simp_all
    refine ScopesFit.popMany l (hs.popElement hlen) ?_
    show c.popElement.stack.length < 65536
    omega

/-- Every event keeps the scopes those of the open elements' declarations, as long as the
elements nest shallowly enough after it. -/
theorem ScopesFit.step (hs : ScopesFit b) (h : Inv b) {offset : Nat} {ev : Markup.Event}
    (hstep : b.step offset ev = .ok b') (hb' : Shallow b') : ScopesFit b' := by
  have hp := h.parent_lt_size
  have hl := h.lastChild_lt
  have h' := h.step hstep
  rcases step_cases hstep with ⟨tag, empty, -, ho⟩ | ⟨-, ⟨name, hc⟩ | ⟨kind, name, value, -, -, rfl⟩ |
    ⟨hn, hst, -, hsc⟩⟩
  · obtain ⟨node, hk, hpar, hstore, -, hnodes, hstack, hscopes⟩ := openElement_namespaces ho
    have hopen := scopesOf_open h hs hk hstore
    unfold ScopesFit
    rw [arena_eq_of_nodes hnodes, hscopes, hstack]
    cases empty
    · exact hopen.symm
    · -- an empty element's scope closes with it; it is one level below the open elements
      have hpath : OpenPath b'.arena (b.nodes.size :: b.stack) := by
        rw [arena_eq_of_nodes hnodes]
        refine ⟨?_, ?_, open_path_append hp hl h.path⟩
        · rw [kind?_append hp hl, if_pos rfl, hk]
        · rw [parent?_append hp hl, if_pos rfl, hpar]
          rfl
      have hlen := hb' b.nodes.size (by rw [hnodes]; simp)
      rw [hpath.ancestors_eq h'.arena, List.length_append, List.length_singleton] at hlen
      have hdepth : b.scopes.depth.toNat < 65535 := by
        rw [hs, depth_scopesOf, UInt16.toNat_ofNat_of_lt' (by simp [UInt16.size]; omega)]
        omega
      have hb : b.scopes.Bounded := by
        rw [hs]
        exact bounded_scopesOf _ _ (by omega)
      simp only [if_true]
      rw [declareAll_eq, Scopes.pop_enter hb hdepth, hs, scopesOf_append hp hl h.path.lt_size]
  · have hnodes := (h.closeElement hc).2
    have hlen : b.stack.length < 65536 := by
      refine h.stack_length_lt fun x hx => ?_
      have := hb' x (by rw [hnodes]; exact hx)
      rwa [arena_eq_of_nodes hnodes] at this
    rcases closeElement_eq_ok hc with rfl | rfl | ⟨k, rfl⟩
    · exact hs
    · exact hs.popElement hlen
    · exact hs.popMany _ hlen
  · unfold ScopesFit Builder.addLeaf
    rw [append_stack, scopesOf_append hp hl h.path.lt_size]
    exact hs
  · unfold ScopesFit
    rw [hsc, arena_eq_of_nodes hn, hst]
    exact hs

theorem NamespacesFit.congr (hf : NamespacesFit b) (hn : b'.nodes = b.nodes) : NamespacesFit b' := by
  unfold NamespacesFit
  rw [arena_eq_of_nodes hn]
  exact hf

theorem NamespacesFit.append_old (hf : NamespacesFit b) (h : Inv b) {n : Node}
    {x : Nat} {n' : Node} (hx : x < b.nodes.size) (hn' : (b.append n).arena.node? x = some n')
    (hk : n'.kind = .element) :
    (∀ a ∈ n'.attributes.toList, a.isDeclaration = true → IsDeclarationName a.name) ∧
      ∃ l, OpenPath (b.append n).arena (x :: l) ∧
        n'.NamespacesIn ((b.append n).arena.scopesOf (x :: l)) := by
  have hp := h.parent_lt_size
  have hl := h.lastChild_lt
  obtain ⟨n0, _, _, _, hn0, rfl⟩ := exists_node?_of_append hp hl (Nat.ne_of_lt hx) hn'
  obtain ⟨hnames, l, hpath, hns⟩ := hf x n0 hn0 hk
  exact ⟨hnames, l, open_path_append hp hl hpath, by rwa [scopesOf_append hp hl hpath.lt_size]⟩

/-- Every event keeps each element's namespaces those of a chain of open elements. -/
theorem NamespacesFit.step (hf : NamespacesFit b) (hs : ScopesFit b) (h : Inv b) {offset : Nat}
    {ev : Markup.Event} (hstep : b.step offset ev = .ok b') : NamespacesFit b' := by
  have hp := h.parent_lt_size
  have hl := h.lastChild_lt
  rcases step_cases hstep with ⟨tag, empty, -, ho⟩ | ⟨-, ⟨name, hc⟩ | ⟨kind, name, value, -, he, rfl⟩ |
    ⟨hn, -, -, -⟩⟩
  · obtain ⟨node, hk, hpar, hstore, hns, hnodes, -, -⟩ := openElement_namespaces ho
    intro x n' hx hk'
    rw [arena_eq_of_nodes hnodes] at hx ⊢
    by_cases hxs : x = b.nodes.size
    · -- the new element sits in the open elements' scopes and its own
      subst hxs
      rw [node?_append node hp hl, if_pos rfl] at hx
      cases hx
      refine ⟨declarationNames_of_stores hstore, b.stack, ⟨?_, ?_, open_path_append hp hl h.path⟩, ?_⟩
      · rw [kind?_append hp hl, if_pos rfl, hk]
      · rw [parent?_append hp hl, if_pos rfl, hpar]
        rfl
      · rw [scopesOf_open h hs hk hstore]
        exact hns
    · exact hf.append_old h (lt_size_of_node?_append hx hxs) hx hk'
  · exact hf.congr (h.closeElement hc).2
  · unfold Builder.addLeaf
    intro x n' hx hk'
    by_cases hxs : x = b.nodes.size
    · subst hxs
      rw [node?_append _ hp hl, if_pos rfl] at hx
      cases hx
      exact absurd hk' he
    · exact hf.append_old h (lt_size_of_node?_append hx hxs) hx hk'
  · exact hf.congr hn

theorem ScopesFit.run : ∀ {evs : List (Nat × Markup.Event)} {c c' : Builder}, Inv c →
    ScopesFit c → c.run evs = .ok c' → Shallow c' → ScopesFit c'
  | [], c, c', _, hs, hrun, _ => by
    cases hrun
    exact hs
  | (offset, ev) :: rest, c, c', h, hs, hrun, hc' => by
    simp only [Builder.run] at hrun
    split at hrun
    · cases hrun
    · rename_i c1 hstep
      have h1 := h.step hstep
      exact ScopesFit.run h1 (hs.step h hstep (Shallow.of_run h1 hrun hc')) hrun hc'

theorem NamespacesFit.run : ∀ {evs : List (Nat × Markup.Event)} {c c' : Builder}, Inv c →
    ScopesFit c → NamespacesFit c → c.run evs = .ok c' → Shallow c' → NamespacesFit c'
  | [], c, c', _, _, hf, hrun, _ => by
    cases hrun
    exact hf
  | (offset, ev) :: rest, c, c', h, hs, hf, hrun, hc' => by
    simp only [Builder.run] at hrun
    split at hrun
    · cases hrun
    · rename_i c1 hstep
      have h1 := h.step hstep
      exact NamespacesFit.run h1 (hs.step h hstep (Shallow.of_run h1 hrun hc'))
        (hf.step hs h hstep) hrun hc'

theorem ScopesFit.start (strict : Bool) : ScopesFit (start strict) := rfl

theorem NamespacesFit.start (strict : Bool) : NamespacesFit (start strict) := by
  intro x n hx hk
  have hx0 : x = 0 := by
    have := lt_size_of_node? hx
    simp only [arena_size, Builder.start, List.size_toArray, List.length_singleton] at this
    omega
  subst hx0
  cases hx
  cases hk

end Builder

/-! ## The namespaces of a built document -/

theorem Document.scopesOf_congr {d d' : Document} (hn : d'.nodes = d.nodes) :
    d'.scopesOf = d.scopesOf := by
  funext chain
  simp only [scopesOf, scopesOver, bindings, declarations, attributes_congr hn]

theorem Document.parse_namespaces {input : List UInt8} {strict : Bool} {d : Document}
    (hd : Document.parse input strict = .ok d) (hnest : ∀ x < d.size, (d.ancestors x).length < 65536)
    {x : Nat} {n : Node} (hx : d.node? x = some n) (hk : n.kind = .element) :
    (∀ a ∈ n.attributes.toList, a.isDeclaration = true → IsDeclarationName a.name) ∧
      n.NamespacesIn (d.scopesOf (x :: d.ancestors x)) := by
  obtain ⟨b, hrun, hnodes, -⟩ := Builder.parse_eq_ok hd
  have hinv := ((Builder.Inv.start strict).run (Builder.Records.start strict) hrun).1
  have hn : d.nodes = b.arena.nodes := hnodes
  have hshallow : Builder.Shallow b := fun y hy => by
    have := hnest y (by rw [size_congr hn]; exact hy)
    rwa [ancestors_congr hn] at this
  have hfit := Builder.NamespacesFit.run (Builder.Inv.start strict) (Builder.ScopesFit.start strict)
    (Builder.NamespacesFit.start strict) hrun hshallow
  rw [node?_congr hn] at hx
  obtain ⟨hnames, l, hpath, hns⟩ := hfit x n hx hk
  have hanc : d.ancestors x = l ++ [0] := (hpath.congr hn).ancestors_eq (hinv.arena.congr hn)
  -- the document node closes the chain with an empty scope
  have h0 : b.arena.attributes 0 = [] := by
    obtain ⟨n0, hn0, hk0, -⟩ := hinv.arena.document_node
    simp [Document.attributes, hn0, hk0]
  refine ⟨hnames, hns.of_agree ?_⟩
  rw [hanc, ← List.cons_append, scopesOf_congr hn]
  exact (scopesOf_append_of_attributes _ h0 _).symm


theorem Document.parse_declarationNames {input : List UInt8} {strict : Bool} {d : Document}
    (hd : Document.parse input strict = .ok d) (hnest : ∀ x < d.size, (d.ancestors x).length < 65536)
    (x : Nat) :
    ∀ b ∈ d.declarations x, IsDeclarationName b.1 := by
  intro b hb
  simp only [declarations, List.mem_map, List.mem_filter] at hb
  obtain ⟨a, ⟨ha, hdecl⟩, rfl⟩ := hb
  unfold Document.attributes at ha
  split at ha
  · rename_i n hn
    split_ifs at ha with hk
    · exact (parse_namespaces hd hnest hn hk).1 a ha hdecl
    · simp at ha
  · simp at ha

end XmlPointer
