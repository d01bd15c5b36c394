import Mathlib
import XmlPointer.Proofs.Namespaces

/-! # Namespaces in a written fragment

The fragment of an element, written as XML or streamed as tokens, repeats on its top element the
declarations that the element inherits: for each name the nearest declaration, the outermost
ancestor's first, with undeclarations left out. Read back with the scoping of a build, these
declarations, the element's own and those inside the fragment resolve every prefix in the
fragment as the whole document does, as long as no ancestor declares a name twice or declares the
name `xmlns:`. Both provisos are needed. Inheritance keeps the first declaration of a name on an
element, while a build binds the last one. And a build reads `xmlns:` as a declaration of the
default namespace, but inheritance does not treat it as the name `xmlns`. -/
namespace XmlPointer

open Document

/-! ## Bindings under names that name their prefix -/

namespace Scopes

variable {M : List (String × String)} {p : String}

theorem lastBinding_map_of_not_mem (hM : ∀ b ∈ M, IsDeclarationName b.1 ∧ b.1 ≠ "xmlns:")
    (h : declarationName p ∉ M.map (·.1)) : lastBinding (M.map declarationBinding) p = none := by
  unfold lastBinding
  split_ifs
  · rfl
  · rw [Option.map_eq_none_iff, List.find?_eq_none]
    intro x hx
    rw [List.mem_reverse, List.mem_map] at hx
    obtain ⟨b, hb, rfl⟩ := hx
    have hne : declarationPrefix b.1 ≠ p := fun he =>
      h (List.mem_map.mpr ⟨b, hb, (declarationPrefix_eq_iff (hM b hb).1 (hM b hb).2).mp he⟩)
    simpa [declarationBinding] using hne

theorem lastBinding_map_of_mem (hM : ∀ b ∈ M, IsDeclarationName b.1 ∧ b.1 ≠ "xmlns:")
    (hnd : (M.map (·.1)).Nodup) (hp : ¬(p = "xml" ∨ p = "xmlns")) {u : String}
    (hmem : (declarationName p, u) ∈ M) : lastBinding (M.map declarationBinding) p = some u := by
  unfold lastBinding
  rw [if_neg hp]
  -- the declaration of `p`'s name is the only one that binds `p`
  have huniq : ∀ y ∈ (M.map declarationBinding).reverse, (y.1 == p) = true → y = (p, u) := by
    intro y hy hyp
    rw [List.mem_reverse, List.mem_map] at hy
    obtain ⟨b, hb, rfl⟩ := hy
    have hbn : b.1 = declarationName p :=
      (declarationPrefix_eq_iff (hM b hb).1 (hM b hb).2).mp (by simpa [declarationBinding] using hyp)
    obtain rfl : b = (declarationName p, u) := List.inj_on_of_nodup_map hnd hb hmem hbn
    simp [declarationBinding, declarationPrefix_declarationName]
  have hex : (p, u) ∈ (M.map declarationBinding).reverse := by
    rw [List.mem_reverse, List.mem_map]
    exact ⟨_, hmem, by simp [declarationBinding, declarationPrefix_declarationName]⟩
  obtain ⟨y, hy⟩ : ∃ y, (M.map declarationBinding).reverse.find? (·.1 == p) = some y :=
    Option.isSome_iff_exists.mp (List.find?_isSome.mpr ⟨_, hex, by simp⟩)
  have hyp := List.find?_some hy
  rw [hy, huniq y (List.mem_of_find?_eq_some hy) hyp]
  rfl

theorem lastBinding_isSome_of_mem {L : List (String × String)} (hp : ¬(p = "xml" ∨ p = "xmlns"))
    {u : String} (hmem : (p, u) ∈ L) : (lastBinding L p).isSome := by
  unfold lastBinding
  rw [if_neg hp, Option.isSome_map, List.find?_isSome]
  exact ⟨_, List.mem_reverse.mpr hmem, by simp⟩

end Scopes

namespace Document

variable {d : Document}

/-! ## Inherited declarations -/

section Unseen

variable {x : String × String} {n : String}

theorem mem_unseenDeclarations_fst :
    ∀ {seen : List String} {ds : List (String × String)},
      n ∈ (unseenDeclarations seen ds).1 ↔ n ∈ seen ∨ n ∈ ds.map (·.1)
  | seen, [] => by simp [unseenDeclarations]
  | seen, (m, u) :: rest => by
    unfold unseenDeclarations
    by_cases hm : seen.contains m = true
    · have hm' : m ∈ seen := List.contains_iff_mem.mp hm
      rw [if_pos hm, mem_unseenDeclarations_fst]
      simp only [List.map_cons, List.mem_cons]
      constructor
      · rintro (h | h) <;> simp [h]
      · rintro (h | rfl | h)
        · exact .inl h
        · exact .inl hm'
        · exact .inr h
    · rw [if_neg hm]
      dsimp only
      rw [mem_unseenDeclarations_fst]
      simp only [List.map_cons, List.mem_cons]
      tauto

theorem mem_unseenDeclarations_snd :
    ∀ {seen : List String} {ds : List (String × String)},
      x ∈ (unseenDeclarations seen ds).2 → x ∈ ds ∧ x.1 ∉ seen ∧ x.2 ≠ ""
  | seen, [], h => by simp [unseenDeclarations] at h
  | seen, (m, u) :: rest, h => by
    unfold unseenDeclarations at h
    by_cases hm : seen.contains m = true
    · rw [if_pos hm] at h
      obtain ⟨hx, hs, hu⟩ := mem_unseenDeclarations_snd h
      exact ⟨List.mem_cons_of_mem _ hx, hs, hu⟩
    · rw [if_neg hm] at h
      dsimp only at h
      have hm' : m ∉ seen := fun h' => hm (List.contains_iff_mem.mpr h')
      split_ifs at h with hu
      · obtain ⟨hx, hs, hu'⟩ := mem_unseenDeclarations_snd h
        exact ⟨List.mem_cons_of_mem _ hx, fun h' => hs (List.mem_cons_of_mem _ h'), hu'⟩
      · rcases List.mem_cons.mp h with rfl | h
        · exact ⟨List.mem_cons_self, hm', by simpa using hu⟩
        · obtain ⟨hx, hs, hu'⟩ := mem_unseenDeclarations_snd h
          exact ⟨List.mem_cons_of_mem _ hx, fun h' => hs (List.mem_cons_of_mem _ h'), hu'⟩

theorem mem_unseenDeclarations_snd_of :
    ∀ {seen : List String} {ds : List (String × String)}, (ds.map (·.1)).Nodup → x ∈ ds →
      x.1 ∉ seen → x.2 ≠ "" → x ∈ (unseenDeclarations seen ds).2
  | seen, [], _, hx, _, _ => by simp at hx
  | seen, (m, u) :: rest, hnd, hx, hs, hu => by
    rw [List.map_cons, List.nodup_cons] at hnd
    unfold unseenDeclarations
    rcases List.mem_cons.mp hx with hxe | hx
    · subst hxe
      have hm : ¬seen.contains m = true := fun h => hs (List.contains_iff_mem.mp h)
      rw [if_neg hm]
      dsimp only
      rw [if_neg (by simpa using hu)]
      exact List.mem_cons_self
    · -- a later declaration has another name than the first
      have hxm : x.1 ≠ m := fun h => hnd.1 (List.mem_map.mpr ⟨x, hx, h⟩)
      by_cases hm : seen.contains m = true
      · rw [if_pos hm]
        exact mem_unseenDeclarations_snd_of hnd.2 hx hs hu
      · rw [if_neg hm]
        dsimp only
        have hrest : x ∈ (unseenDeclarations (m :: seen) rest).2 :=
          mem_unseenDeclarations_snd_of hnd.2 hx (by simp [hxm, hs]) hu
        split_ifs
        · exact hrest
        · exact List.mem_cons_of_mem _ hrest

theorem unseenDeclarations_sublist :
    ∀ {seen : List String} {ds : List (String × String)},
      List.Sublist (unseenDeclarations seen ds).2 ds
  | _, [] => by simp [unseenDeclarations]
  | seen, (m, u) :: rest => by
    unfold unseenDeclarations
    split_ifs
    · exact unseenDeclarations_sublist.cons _
    · exact unseenDeclarations_sublist.cons _
    · exact unseenDeclarations_sublist.cons_cons _

end Unseen

section KeptBindings

variable {seen : List String} {ds : List (String × String)} {p : String}
  (hM : ∀ b ∈ ds, IsDeclarationName b.1 ∧ b.1 ≠ "xmlns:")
include hM

theorem unseenDeclarations_names :
    ∀ b ∈ (unseenDeclarations seen ds).2, IsDeclarationName b.1 ∧ b.1 ≠ "xmlns:" :=
  fun b hb => hM b (mem_unseenDeclarations_snd hb).1

theorem lastBinding_unseen_of_not_mem (h : declarationName p ∉ ds.map (·.1)) :
    Scopes.lastBinding ((unseenDeclarations seen ds).2.map declarationBinding) p = none := by
  refine Scopes.lastBinding_map_of_not_mem (unseenDeclarations_names hM) fun hmem => h ?_
  obtain ⟨b, hb, hbn⟩ := List.mem_map.mp hmem
  exact List.mem_map.mpr ⟨b, (mem_unseenDeclarations_snd hb).1, hbn⟩

theorem lastBinding_unseen_of_mem (hnd : (ds.map (·.1)).Nodup) (hp : ¬(p = "xml" ∨ p = "xmlns"))
    {u : String} (hmem : (declarationName p, u) ∈ ds) (hs : declarationName p ∉ seen) :
    Scopes.lastBinding ((unseenDeclarations seen ds).2.map declarationBinding) p =
      if u = "" then none else some u := by
  split_ifs with hu
  · -- the undeclaration is dropped, and no other declaration carries the name
    refine Scopes.lastBinding_map_of_not_mem (unseenDeclarations_names hM) fun h => ?_
    obtain ⟨b, hb, hbn⟩ := List.mem_map.mp h
    obtain ⟨hb', -, hbu⟩ := mem_unseenDeclarations_snd hb
    obtain rfl : b = (declarationName p, u) := List.inj_on_of_nodup_map hnd hb' hmem hbn
    exact hbu hu
  · exact Scopes.lastBinding_map_of_mem (unseenDeclarations_names hM)
      (hnd.sublist (unseenDeclarations_sublist.map _)) hp (mem_unseenDeclarations_snd_of hnd hmem hs hu)

end KeptBindings

/-- The declarations inherited from a list of ancestors, nearest first, past the names already
seen: the outer ancestors' first, then the nearest one's whose names are not yet seen. -/
def inheritedFrom (d : Document) : List String → List Nat → List (String × String)
  | _, [] => []
  | seen, a :: rest =>
    d.inheritedFrom (unseenDeclarations seen (d.declarations a)).1 rest ++
      (unseenDeclarations seen (d.declarations a)).2

theorem foldl_unseenDeclarations (d : Document) :
    ∀ (ancs : List Nat) (seen : List String) (acc : List (List (String × String))),
      (ancs.foldl (fun (acc : List String × List (List (String × String))) a =>
          ((unseenDeclarations acc.1 (d.declarations a)).1,
            (unseenDeclarations acc.1 (d.declarations a)).2 :: acc.2)) (seen, acc)).2.flatten =
        d.inheritedFrom seen ancs ++ acc.flatten
  | [], _, _ => rfl
  | a :: rest, seen, acc => by
    rw [List.foldl_cons, foldl_unseenDeclarations d rest, inheritedFrom, List.flatten_cons,
      List.append_assoc]

theorem inheritedDeclarations_eq (d : Document) (e : Nat) :
    d.inheritedDeclarations e = d.inheritedFrom ((d.declarations e).map (·.1)) (d.ancestors e) := by
  unfold inheritedDeclarations
  dsimp only
  rw [foldl_unseenDeclarations, List.flatten_nil, List.append_nil]

theorem mem_inheritedFrom {x : String × String} :
    ∀ {ancs : List Nat} {seen : List String}, x ∈ d.inheritedFrom seen ancs →
      x.1 ∉ seen ∧ ∃ a ∈ ancs, x ∈ d.declarations a
  | [], _, h => by simp [inheritedFrom] at h
  | a :: rest, seen, h => by
    rw [inheritedFrom, List.mem_append] at h
    rcases h with h | h
    · obtain ⟨hs, b, hb, hx⟩ := mem_inheritedFrom h
      exact ⟨fun h' => hs (mem_unseenDeclarations_fst.mpr (.inl h')), b, List.mem_cons_of_mem _ hb, hx⟩
    · obtain ⟨hx, hs, -⟩ := mem_unseenDeclarations_snd h
      exact ⟨hs, a, List.mem_cons_self, hx⟩

/-! ## Fragments -/

def fragmentDeclarations (d : Document) (e : Nat) : List (String × String) :=
  d.inheritedDeclarations e ++ d.declarations e

/-- The scopes a reader of the fragment of `e` is in at `y`, `e` itself or one of its
descendants: those of the declarations written on `e`'s tag, and inside them those of the
elements from `e` down to `y`. -/
def fragmentScopes (d : Document) (e y : Nat) : Scopes :=
  d.scopesOver (Scopes.initial.enter ((d.fragmentDeclarations e).map declarationBinding))
    ((y :: d.ancestors y).takeWhile (· != e))

def DeclaresPlainly (d : Document) (a : Nat) : Prop :=
  ((d.declarations a).map (·.1)).Nodup ∧ "xmlns:" ∉ (d.declarations a).map (·.1)

instance (d : Document) : DecidablePred d.DeclaresPlainly :=
  fun _ => inferInstanceAs (Decidable (_ ∧ _))

theorem nearestBinding_reserved {p : String} (hp : p = "xml" ∨ p = "xmlns") (chain : List Nat) :
    d.nearestBinding chain p = none := by
  induction chain with
  | nil => rfl
  | cons x chain ih => simp_all [nearestBinding, Scopes.lastBinding]

theorem lookup_initial {p : String} (hp : ¬(p = "xml" ∨ p = "xmlns")) :
    Scopes.initial.lookup p = none := by
  simp only [not_or] at hp
  simp [Scopes.lookup, Scopes.initial, Ne.symm hp.1, Ne.symm hp.2]

section Inherited

variable {p : String} (hnames : ∀ a, ∀ b ∈ d.declarations a, IsDeclarationName b.1)
include hnames

theorem DeclaresPlainly.names {a : Nat} (h : d.DeclaresPlainly a) :
    ∀ b ∈ d.declarations a, IsDeclarationName b.1 ∧ b.1 ≠ "xmlns:" :=
  fun b hb => ⟨hnames a b hb, fun he => h.2 (he ▸ List.mem_map_of_mem hb)⟩

theorem lastBinding_inheritedFrom_of_mem {ancs : List Nat} {seen : List String}
    (hplain : ∀ a ∈ ancs, d.DeclaresPlainly a) (hs : declarationName p ∈ seen) :
    Scopes.lastBinding ((d.inheritedFrom seen ancs).map declarationBinding) p = none := by
  refine Scopes.lastBinding_map_of_not_mem (fun b hb => ?_) (fun hmem => ?_)
  · obtain ⟨-, a, ha, hb⟩ := mem_inheritedFrom hb
    exact (hplain a ha).names hnames b hb
  · obtain ⟨b, hb, hbn⟩ := List.mem_map.mp hmem
    exact (mem_inheritedFrom hb).1 (by rw [hbn]; exact hs)

/-- Read back, the declarations inherited past the names already seen bind a prefix whose name
is not yet seen as the nearest ancestor that declares it does, an unbinding counting as none. -/
theorem lastBinding_inheritedFrom (hp : ¬(p = "xml" ∨ p = "xmlns")) :
    ∀ {ancs : List Nat} {seen : List String}, (∀ a ∈ ancs, d.DeclaresPlainly a) →
      declarationName p ∉ seen →
      (Scopes.lastBinding ((d.inheritedFrom seen ancs).map declarationBinding) p).filter
          (!·.isEmpty) = (d.nearestBinding ancs p).filter (!·.isEmpty)
  | [], _, _, _ => by simp [inheritedFrom, nearestBinding]
  | a :: rest, seen, hplain, hs => by
    have ha := hplain a List.mem_cons_self
    have hrest : ∀ b ∈ rest, d.DeclaresPlainly b := fun b hb => hplain b (List.mem_cons_of_mem _ hb)
    have hM := ha.names hnames
    rw [inheritedFrom, List.map_append, Scopes.lastBinding_append, nearestBinding, List.foldr_cons]
    by_cases hdecl : declarationName p ∈ (d.declarations a).map (·.1)
    · -- `a` declares the prefix: its declaration decides, and nothing further out binds it
      obtain ⟨⟨n, u⟩, hmem, hn⟩ := List.mem_map.mp hdecl
      obtain rfl : n = declarationName p := hn
      have hbind : Scopes.lastBinding (d.bindings a) p = some u :=
        Scopes.lastBinding_map_of_mem hM ha.1 hp hmem
      rw [lastBinding_unseen_of_mem hM ha.1 hp hmem hs, hbind,
        lastBinding_inheritedFrom_of_mem hnames hrest (mem_unseenDeclarations_fst.mpr (.inr hdecl)),
        Option.or_none, Option.some_or]
      split_ifs with hu
      · subst hu
        rfl
      · rfl
    · -- `a` does not declare it: look further out, past `a`'s names
      have hseen : declarationName p ∉ (unseenDeclarations seen (d.declarations a)).1 := by
        rw [mem_unseenDeclarations_fst]
        tauto
      have hbind : Scopes.lastBinding (d.bindings a) p = none :=
        Scopes.lastBinding_map_of_not_mem hM hdecl
      rw [lastBinding_unseen_of_not_mem hM hdecl, hbind, Option.none_or, Option.none_or]
      exact lastBinding_inheritedFrom hp hrest hseen

theorem agree_fragment {e : Nat} (hplain : ∀ a ∈ d.ancestors e, d.DeclaresPlainly a) :
    (Scopes.initial.enter ((d.fragmentDeclarations e).map declarationBinding)).Agree
      (d.scopesOf (e :: d.ancestors e)) := by
  refine Scopes.agree_of_lookup fun p => ?_
  rw [Scopes.lookup_enter, fragmentDeclarations, List.map_append, Scopes.lastBinding_append,
    scopesOf_cons, Scopes.lookup_enter, scopesOf, lookup_scopesOver, inheritedDeclarations_eq]
  change (((Scopes.lastBinding (d.bindings e) p).or _).or _).filter _ = _
  cases hown : Scopes.lastBinding (d.bindings e) p with
  | some u => rfl
  | none =>
    rw [Option.none_or, Option.none_or]
    by_cases hp : p = "xml" ∨ p = "xmlns"
    · -- `xml` and `xmlns` keep their first binding
      have hinh : Scopes.lastBinding ((d.inheritedFrom ((d.declarations e).map (·.1))
          (d.ancestors e)).map declarationBinding) p = none := by
        simp [Scopes.lastBinding, hp]
      rw [hinh, nearestBinding_reserved hp]
    · -- the element does not declare the prefix, so its name is not among those seen first
      have hs : declarationName p ∉ (d.declarations e).map (·.1) := by
        intro h
        obtain ⟨b, hb, hbn⟩ := List.mem_map.mp h
        have hsome := Scopes.lastBinding_isSome_of_mem (L := d.bindings e) hp (u := b.2)
          (List.mem_map.mpr ⟨b, hb, by
            simp [declarationBinding, hbn, declarationPrefix_declarationName]⟩)
        rw [hown] at hsome
        exact absurd hsome (by simp)
      rw [lookup_initial hp, Option.or_none, Option.or_none]
      exact lastBinding_inheritedFrom hnames hp hplain hs

end Inherited

/-- Read back with the scoping of a build, a fragment written from a document a build yields, of
an element none of whose ancestors declares a name twice or declares the name `xmlns:`, gives
every element in it, and each of its prefixed attributes, the namespace the document gives it,
as long as no node of the document has 65536 ancestors or more. -/
theorem fragment_scopes_resolve {input : List UInt8} {strict : Bool}
    (hd : Document.parse input strict = .ok d)
    (hnest : ∀ x < d.size, (d.ancestors x).length < 65536) {e y : Nat} {n : Node}
    (hy : e ∈ y :: d.ancestors y) (hn : d.node? y = some n) (hk : n.kind = .element)
    (hplain : ∀ a ∈ d.ancestors e, d.DeclaresPlainly a) :
    n.NamespacesIn (d.fragmentScopes e y) := by
  have hchain : y :: d.ancestors y =
      (y :: d.ancestors y).takeWhile (· != e) ++ e :: d.ancestors e := by
    rw [← (parse_arena hd).dropWhile_ancestors y hy, List.takeWhile_append_dropWhile]
  refine (parse_namespaces hd hnest hn hk).2.of_agree ?_
  rw [hchain, scopesOf, scopesOver_append]
  exact agree_scopesOver (agree_fragment (parse_declarationNames hd hnest) hplain).symm d _

/-- In `<r xmlns:p="urn:a"><s xmlns="urn:b"><p:e/></s></r>`, read leniently, the fragment of
`s` gives `p:e` its namespace. -/
theorem fragment_of_prefixed_child_resolves :
    ∃ d n, Document.parse "<r xmlns:p=\"urn:a\"><s xmlns=\"urn:b\"><p:e/></s></r>".toUTF8.toList
        false = .ok d ∧ d.node? 3 = some n ∧ n.NamespacesIn (d.fragmentScopes 2 3) := by
  have hc : (Document.parse "<r xmlns:p=\"urn:a\"><s xmlns=\"urn:b\"><p:e/></s></r>".toUTF8.toList
      false).toOption.map (fun d => ((d.node? 3).map (·.kind), decide (2 ∈ 3 :: d.ancestors 3),
        decide (∀ a ∈ d.ancestors 2, d.DeclaresPlainly a),
        decide (∀ x < d.size, (d.ancestors x).length < 65536))) =
      some (some .element, true, true, true) := by
    decide +kernel
  cases h : Document.parse "<r xmlns:p=\"urn:a\"><s xmlns=\"urn:b\"><p:e/></s></r>".toUTF8.toList
      false with
  | error err => rw [h] at hc; cases hc
  | ok d =>
    rw [h] at hc
    simp only [Except.toOption, Option.map_some, Option.some.injEq, Prod.mk.injEq,
      decide_eq_true_eq] at hc
    obtain ⟨hk, hmem, hplain, hnest⟩ := hc
    cases hn : d.node? 3 with
    | none => rw [hn] at hk; cases hk
    | some n =>
      rw [hn, Option.map_some, Option.some.injEq] at hk
      exact ⟨d, n, rfl, hn, fragment_scopes_resolve h hnest hmem hn hk hplain⟩

/-- Without the provisos a fragment can move an element into another namespace. In
`<r xmlns="urn:a"><s xmlns:=""><e/></s></r>` the declaration `xmlns:` undeclares the default
namespace, so `e` has none; the fragment of `e` inherits `r`'s `xmlns` past it, is written
`<e xmlns="urn:a"/>`, and read back puts `e` in `urn:a`. -/
theorem fragment_rebinds_undeclared_default :
    (Document.parse "<r xmlns=\"urn:a\"><s xmlns:=\"\"><e/></s></r>".toUTF8.toList true).toOption.map
        (fun d => (d.namespaceUri? 3, d.toXml 3)) = some (none, "<e xmlns=\"urn:a\"/>") ∧
      (Document.parse "<e xmlns=\"urn:a\"/>".toUTF8.toList true).toOption.map (·.namespaceUri? 1) =
        some (some "urn:a") :=
  ⟨by decide +kernel, by decide +kernel⟩

end Document

end XmlPointer
