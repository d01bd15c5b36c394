import Mathlib
import XmlPointer.Proofs.Build

/-! # The ID index of a built document

A build records an ID value for every ID attribute of an element it opens: an attribute that is
no namespace declaration and is named `xml:id` or `id`, or is the ID attribute that the DTD in
force declares for the element's name; the DTD in force is that of the latest DOCTYPE before the
element's start tag. Values are trimmed, and the first element to record a value keeps it.
`Document.elementById_eq_some_iff` states the index of a parsed document: a key names the first
element in document order that carries it, for documents whose ID values trim alike with the XML
blanks and with Unicode white space. -/
namespace XmlPointer

/-- The DTD in force after an event: a DOCTYPE brings its own. -/
def Markup.Event.nextDtd (dtd : Markup.Dtd) : Markup.Event → Markup.Dtd
  | .doctype content => Markup.Dtd.parse content
  | _ => dtd

/-- The DTD each start tag of an event list is read under, in order, starting from `dtd`. -/
def Markup.tagDtds (dtd : Markup.Dtd) : List (Nat × Markup.Event) → List Markup.Dtd
  | [] => []
  | (_, ev) :: rest => (ev.tag?.toList.map fun _ => dtd) ++ tagDtds (ev.nextDtd dtd) rest

def Attr.isIdUnder (dtd : Markup.Dtd) (element : String) (a : Attr) : Bool :=
  !a.isDeclaration && (a.name == "xml:id" || a.name == "id" || dtd.idAttribute element == some a.name)

namespace Document

def idAttributes (d : Document) (dtd : Markup.Dtd) (e : Nat) : List Attr :=
  (d.attributes e).filter (Attr.isIdUnder dtd ((d.name? e).getD ""))

def idCandidates (d : Document) (dtds : List Markup.Dtd) : List (String × Nat) :=
  (d.elements.zip dtds).flatMap fun p => (d.idAttributes p.2 p.1).map fun a => (a.value, p.1)

/-- Element `e`, read under the DTD of its start tag, has an ID attribute whose value is `k` once
the XML blanks at both ends are trimmed. -/
def CarriesId (d : Document) (dtds : List Markup.Dtd) (e : Nat) (k : String) : Prop :=
  ∃ (i : Nat) (dtd : Markup.Dtd), d.elements[i]? = some e ∧ dtds[i]? = some dtd ∧
    ∃ a ∈ d.idAttributes dtd e, Text.trimXml a.value = k

end Document

namespace Builder

def recordIds (ids : List (String × Nat)) (cands : List (String × Nat)) : List (String × Nat) :=
  cands.foldl (fun ids c => recordId ids c.1 c.2) ids

theorem recordId_eq (ids : List (String × Nat)) (v : String) (owner : Nat) :
    recordId ids v owner =
      if (Text.trimUnicode v).isEmpty || ids.any (·.1 == Text.trimUnicode v) then ids
      else ids ++ [(Text.trimUnicode v, owner)] := rfl

variable {ids : List (String × Nat)}

theorem recordId_keys (h : ∀ c ∈ ids, c.1 ≠ "") (v : String) (owner : Nat) :
    ∀ c ∈ recordId ids v owner, c.1 ≠ "" := by
  rw [recordId_eq]
  split_ifs with hk
  · exact h
  · intro c hc
    rcases List.mem_append.mp hc with hc | hc
    · exact h c hc
    · simp only [List.mem_singleton] at hc
      subst hc
      simp only [Bool.or_eq_true, not_or] at hk
      simpa using hk.1

theorem find?_eq_none_of_keys {l : List (String × Nat)} (hl : ∀ c ∈ l, c.1 ≠ "") :
    l.find? (·.1 == "") = none :=
  List.find?_eq_none.mpr fun x hx => by simpa using hl x hx

theorem find?_recordId {k : String} (hk : k ≠ "") (v : String)
    (owner : Nat) :
    ((recordId ids v owner).find? (·.1 == k)).map (·.2) =
      ((ids.find? (·.1 == k)).map (·.2)).or (if Text.trimUnicode v = k then some owner else none) := by
  rw [recordId_eq]
  split_ifs with hcond hvk hvk
  · -- the key is taken: it was recorded before
    subst hvk
    simp only [Bool.or_eq_true, hk, String.isEmpty_iff, false_or] at hcond
    obtain ⟨x, hx, hxk⟩ := List.any_eq_true.mp hcond
    obtain ⟨y, hy⟩ := Option.isSome_iff_exists.mp
      ((List.find?_isSome (p := fun y : String × Nat => y.1 == Text.trimUnicode v)).mpr ⟨x, hx, hxk⟩)
    simp [hy]
  · simp
  · subst hvk
    have hnone : ids.find? (·.1 == Text.trimUnicode v) = none :=
      List.find?_eq_none.mpr fun x hx hxk => hcond (by
        rw [Bool.or_eq_true]
        exact .inr (List.any_eq_true.mpr ⟨x, hx, hxk⟩))
    simp [List.find?_append, hnone]
  · simp [List.find?_append, hvk]

theorem find?_recordIds (k : String) : ∀ (cands ids : List (String × Nat)), (∀ c ∈ ids, c.1 ≠ "") →
    ((recordIds ids cands).find? (·.1 == k)).map (·.2) =
      ((ids.find? (·.1 == k)).map (·.2)).or
        (if k = "" then none else (cands.find? fun c => Text.trimUnicode c.1 == k).map (·.2))
  | [], ids, _ => by split_ifs <;> simp [recordIds]
  | c :: rest, ids, h => by
    have ih := find?_recordIds k rest (recordId ids c.1 c.2) (recordId_keys h c.1 c.2)
    simp only [recordIds, List.foldl_cons] at ih ⊢
    rw [ih]
    by_cases hk : k = ""
    · subst hk
      simp [find?_eq_none_of_keys h, find?_eq_none_of_keys (recordId_keys h c.1 c.2)]
    · rw [find?_recordId hk, Option.or_assoc]
      by_cases hc : Text.trimUnicode c.1 = k <;> simp [hk, hc]

end Builder

namespace Document

variable {d : Document} {dtds : List Markup.Dtd}

theorem mem_idCandidates {c : String × Nat} :
    c ∈ d.idCandidates dtds ↔ ∃ (i : Nat) (dtd : Markup.Dtd), d.elements[i]? = some c.2 ∧ dtds[i]? = some dtd ∧
      ∃ a ∈ d.idAttributes dtd c.2, a.value = c.1 := by
  simp only [idCandidates, List.mem_flatMap, List.mem_map, List.mem_iff_getElem? (l := d.elements.zip dtds),
    List.getElem?_zip_eq_some]
  constructor
  · rintro ⟨p, ⟨i, hp1, hp2⟩, a, ha, rfl⟩
    exact ⟨i, p.2, hp1, hp2, a, ha, rfl⟩
  · rintro ⟨i, dtd, he, hd, a, ha, hv⟩
    exact ⟨(c.2, dtd), ⟨i, he, hd⟩, a, ha, by rw [hv]⟩

theorem idCandidates_sorted (hlen : d.elements.length ≤ dtds.length) :
    (d.idCandidates dtds).Pairwise (fun a b => a.2 ≤ b.2) := by
  have hsorted : d.elements.Pairwise (· < ·) := List.pairwise_lt_range.filter _
  have hzip : (d.elements.zip dtds).Pairwise (fun p q => p.1 < q.1) := by
    rw [← List.map_fst_zip hlen] at hsorted
    exact List.pairwise_map.mp hsorted
  refine List.pairwise_flatMap.mpr ⟨fun p _ => ?_, hzip.imp fun hpq x hx y hy => ?_⟩
  · exact List.pairwise_map.mpr (List.pairwise_of_forall fun _ _ => le_refl _)
  · obtain ⟨a, -, rfl⟩ := List.mem_map.mp hx
    obtain ⟨b, -, rfl⟩ := List.mem_map.mp hy
    exact le_of_lt hpq

theorem find?_snd_eq_some {L : List (String × Nat)} (hL : L.Pairwise (fun a b => a.2 ≤ b.2))
    {q : String × Nat → Bool} {e : Nat} :
    (L.find? q).map (·.2) = some e ↔ (∃ c ∈ L, q c = true ∧ c.2 = e) ∧ ∀ c ∈ L, q c = true → e ≤ c.2 := by
  -- the first match is at or before every other match, so its element is the least
  have hfirst : ∀ c₀, L.find? q = some c₀ → ∀ c ∈ L, q c = true → c₀.2 ≤ c.2 := by
    intro c₀ h₀ c hc hq
    obtain ⟨-, as, bs, rfl, has⟩ := List.find?_eq_some_iff_append.mp h₀
    rcases List.mem_append.mp hc with hc | hc
    · simpa [hq] using has c hc
    · rcases List.mem_cons.mp hc with rfl | hc
      · exact le_rfl
      · exact (List.pairwise_cons.mp (List.pairwise_append.mp hL).2.1).1 c hc
  constructor
  · intro h
    obtain ⟨c₀, h₀, rfl⟩ := Option.map_eq_some_iff.mp h
    exact ⟨⟨c₀, List.mem_of_find?_eq_some h₀, List.find?_some h₀, rfl⟩, hfirst c₀ h₀⟩
  · rintro ⟨⟨c, hc, hq, rfl⟩, hleast⟩
    obtain ⟨c₀, h₀⟩ := Option.isSome_iff_exists.mp (List.find?_isSome.mpr ⟨c, hc, hq⟩)
    have hle := hfirst c₀ h₀ c hc hq
    have hge := hleast c₀ (List.mem_of_find?_eq_some h₀) (List.find?_some h₀)
    simp [h₀, le_antisymm hle hge]

theorem idCandidates_congr {d' : Document} (hn : d'.nodes = d.nodes) :
    d'.idCandidates = d.idCandidates := by
  funext dtds
  simp [idCandidates, idAttributes, elements_congr hn, attributes_congr hn, name?, node?_congr hn]

end Document

namespace Builder

variable {b b' : Builder}

section Append

variable {n : Node} (hp : b.parent < b.nodes.size)
  (hl : ∀ l, b.arena.lastChild? b.parent = some l → b.parent < l ∧ l < b.nodes.size)
include hp hl

theorem name?_append (m : Nat) :
    (b.append n).arena.name? m =
      if m = b.nodes.size then
        (if n.kind = .element || n.kind = .instruction then some n.name else none)
      else b.arena.name? m := by
  by_cases hm : m = b.nodes.size
  · rw [if_pos hm]
    simp only [Document.name?, node?_append n hp hl, if_pos hm, Option.bind_some]
  · rw [if_neg hm]
    obtain ⟨fc, lc, ns, he⟩ := node?_append_of_ne hp hl hm (n := n)
    simp only [Document.name?, he, Option.bind_map]
    rfl

theorem idAttributes_append {m : Nat} (hm : m < b.nodes.size) (dtd : Markup.Dtd) :
    (b.append n).arena.idAttributes dtd m = b.arena.idAttributes dtd m := by
  simp only [Document.idAttributes, attributes_append hp hl hm, name?_append hp hl, Nat.ne_of_lt hm,
    if_false]

theorem idCandidates_append {dtds : List Markup.Dtd} (hlen : b.arena.elements.length = dtds.length)
    (dtd : Markup.Dtd) :
    (b.append n).arena.idCandidates (dtds ++ if n.kind = .element then [dtd] else []) =
      b.arena.idCandidates dtds ++ if n.kind = .element then
        (n.attributes.toList.filter (Attr.isIdUnder dtd n.name)).map fun a => (a.value, b.nodes.size)
      else [] := by
  unfold Document.idCandidates
  rw [elements_append hp hl, List.zip_append hlen, List.flatMap_append]
  congr 1
  · refine List.flatMap_congr fun x hx => ?_
    have hlt := List.mem_range.mp (List.mem_filter.mp (List.of_mem_zip hx).1).1
    rw [idAttributes_append hp hl hlt]
  · by_cases hk : n.kind = .element
    · have hnode : (b.append n).arena.node? b.nodes.size =
          some { n with prevSibling := (b.arena.lastChild? b.parent).or n.prevSibling } := by
        rw [node?_append n hp hl, if_pos rfl]
      simp [hk, Document.idAttributes, Document.attributes, Document.name?, hnode]
    · simp [hk]

end Append

theorem storeAttributes_ids {scopes : Scopes} {element : String} {owner offset : Nat} :
    ∀ {attrs : List Markup.Attribute} {ids : List (String × Nat)} {stored : List Attr}
      {ids' : List (String × Nat)},
      b.storeAttributes scopes element owner offset attrs ids = .ok (stored, ids') →
      ids' = recordIds ids ((stored.filter (Attr.isIdUnder b.dtd element)).map fun a => (a.value, owner))
  | [], _, _, _, h => by
    simp only [storeAttributes, Except.ok.injEq, Prod.mk.injEq] at h
    rw [← h.1, ← h.2]
    rfl
  | a :: rest, ids, stored, ids', h => by
    unfold storeAttributes at h
    dsimp only at h
    split at h
    · cases h
    · split at h
      · cases h
      · rename_i attrs ids'' hrest
        simp only [Except.ok.injEq, Prod.mk.injEq] at h
        obtain ⟨rfl, rfl⟩ := h
        rw [storeAttributes_ids hrest]
        simp only [List.filter_cons, Attr.isIdUnder]
        -- a declaration is never an ID; otherwise the two tests read the same name
        cases hdecl : a.isDeclaration <;> split_ifs <;> simp_all [recordIds]

@[simp] theorem popElement_ids : b.popElement.ids = b.ids := by
  unfold Builder.popElement
  split <;> rfl

@[simp] theorem popElement_dtd : b.popElement.dtd = b.dtd := by
  unfold Builder.popElement
  split <;> rfl

theorem popMany_ids_dtd : ∀ (l : List Nat) {c : Builder},
    (l.foldl (fun b _ => b.popElement) c).ids = c.ids ∧
      (l.foldl (fun b _ => b.popElement) c).dtd = c.dtd
  | [], _ => ⟨rfl, rfl⟩
  | _ :: l, c => by
    obtain ⟨h1, h2⟩ := popMany_ids_dtd l (c := c.popElement)
    exact ⟨h1.trans popElement_ids, h2.trans popElement_dtd⟩

theorem closeElement_ids_dtd {name : List UInt8} {offset : Nat}
    (h : b.closeElement name offset = .ok b') : b'.ids = b.ids ∧ b'.dtd = b.dtd := by
  rcases closeElement_eq_ok h with rfl | rfl | ⟨k, rfl⟩
  · exact ⟨rfl, rfl⟩
  · simp
  · exact popMany_ids_dtd _

theorem step_dtd_ids {offset : Nat} {ev : Markup.Event} (hs : b.step offset ev = .ok b') :
    b'.dtd = ev.nextDtd b.dtd ∧ (ev.tag? = none → b'.ids = b.ids) := by
  cases ev with
  | start tag | empty tag =>
    obtain ⟨-, -, -, -, -, rfl⟩ := openElement_eq_ok_elim hs
    exact ⟨rfl, fun h => nomatch h⟩
  | finish name =>
    obtain ⟨h1, h2⟩ := closeElement_ids_dtd hs
    exact ⟨h2, fun _ => h1⟩
  | text content | cdata content =>
    simp only [step] at hs
    split at hs
    · split at hs
      · cases hs
      · cases hs
        exact ⟨rfl, fun _ => rfl⟩
    · cases hs
      exact ⟨rfl, fun _ => rfl⟩
  | doctype content =>
    simp only [step] at hs
    split at hs
    · cases hs
    · cases hs
      exact ⟨rfl, fun _ => rfl⟩
  | comment content | instruction target data | declaration | endDocument =>
    cases hs
    exact ⟨rfl, fun _ => rfl⟩

def IdsFit (b : Builder) (dtds : List Markup.Dtd) : Prop :=
  b.arena.elements.length = dtds.length ∧ b.ids = recordIds [] (b.arena.idCandidates dtds)

theorem IdsFit.start (strict : Bool) : IdsFit (start strict) [] := by
  simp [IdsFit, Document.elements, Builder.start, Builder.arena, Document.size, Document.kind?,
    Document.node?, Node.documentNode, Node.unlinked, Document.idCandidates, recordIds]

theorem IdsFit.congr {dtds : List Markup.Dtd} (h : IdsFit b dtds) (hn : b'.nodes = b.nodes)
    (hi : b'.ids = b.ids) : IdsFit b' dtds := by
  rw [IdsFit, arena_eq_of_nodes hn, hi]
  exact h

theorem IdsFit.append {dtds : List Markup.Dtd} (hf : IdsFit b dtds) (hp : b.parent < b.nodes.size)
    (hl : ∀ l, b.arena.lastChild? b.parent = some l → b.parent < l ∧ l < b.nodes.size) {n : Node} (hn : b'.nodes = (b.append n).nodes)
    (hi : b'.ids = recordIds b.ids (if n.kind = .element then
      (n.attributes.toList.filter (Attr.isIdUnder b.dtd n.name)).map fun a => (a.value, b.nodes.size)
      else [])) :
    IdsFit b' (dtds ++ if n.kind = .element then [b.dtd] else []) := by
  unfold IdsFit
  rw [arena_eq_of_nodes hn, elements_append hp hl, idCandidates_append hp hl hf.1, hi, hf.2]
  refine ⟨?_, ?_⟩
  · split_ifs <;> simp [hf.1]
  · simp [recordIds, List.foldl_append]

theorem IdsFit.step {dtds : List Markup.Dtd} (hf : IdsFit b dtds) (h : Inv b) {offset : Nat}
    {ev : Markup.Event} (hs : b.step offset ev = .ok b') :
    IdsFit b' (dtds ++ ev.tag?.toList.map fun _ => b.dtd) := by
  have hp := h.parent_lt_size
  have hl := h.lastChild_lt
  rcases step_cases hs with ⟨tag, empty, htag, ho⟩ | ⟨htag, ⟨name, hc⟩ |
    ⟨kind, name, value, hk, he, rfl⟩ | ⟨hn, -, -, -⟩⟩
  · obtain ⟨ns, attrs, ids, -, hst, hb'⟩ := openElement_eq_ok_elim ho
    have hopen := hf.append hp hl (show b'.nodes = (b.append (Node.unlinked .element
        (some b.parent) (text tag.name) (text (Markup.splitName tag.name).2)
        ((Option.map text (Markup.splitName tag.name).1).getD "") ns "" attrs.toArray
        b.childDepth (.ofNat offset))).nodes by rw [hb'])
      (by rw [hb']; simp [Node.unlinked, storeAttributes_ids hst])
    simpa [htag, Node.unlinked] using hopen
  · rw [htag, Option.toList_none, List.map_nil, List.append_nil]
    exact hf.congr (h.closeElement hc).2 (closeElement_ids_dtd hc).1
  · have hleaf := hf.append hp hl (show (b.addLeaf kind name value offset).nodes =
        (b.append (Node.unlinked kind (some b.parent) name name "" "" value #[] b.childDepth
          (.ofNat offset))).nodes from rfl)
      (by simp only [Node.unlinked, he, if_false, recordIds, List.foldl_nil]; rfl)
    simpa [htag, he, Node.unlinked] using hleaf
  · rw [htag, Option.toList_none, List.map_nil, List.append_nil]
    exact hf.congr hn ((step_dtd_ids hs).2 htag)

theorem Markup.tagDtds_cons (dtd : Markup.Dtd) (offset : Nat) (ev : Markup.Event)
    (rest : List (Nat × Markup.Event)) :
    Markup.tagDtds dtd ((offset, ev) :: rest) =
      (ev.tag?.toList.map fun _ => dtd) ++ Markup.tagDtds (ev.nextDtd dtd) rest := rfl

theorem IdsFit.run : ∀ {evs : List (Nat × Markup.Event)} {c c' : Builder} {dtds : List Markup.Dtd},
    Inv c → IdsFit c dtds → c.run evs = .ok c' → IdsFit c' (dtds ++ Markup.tagDtds c.dtd evs)
  | [], c, c', dtds, _, hf, hrun => by
    cases hrun
    simpa [Markup.tagDtds] using hf
  | (offset, ev) :: rest, c, c', dtds, h, hf, hrun => by
    simp only [Builder.run] at hrun
    split at hrun
    · cases hrun
    · rename_i c1 hs
      have ih := IdsFit.run (h.step hs) (hf.step h hs) hrun
      rwa [(step_dtd_ids hs).1, List.append_assoc, ← Markup.tagDtds_cons] at ih

end Builder

namespace Document

variable {input : List UInt8} {strict : Bool} {d : Document}

def elementDtds (input : List UInt8) (strict : Bool) : List Markup.Dtd :=
  Markup.tagDtds {} (Markup.events strict input).1

theorem parse_ids (hd : Document.parse input strict = .ok d) :
    d.elements.length = (elementDtds input strict).length ∧
      d.ids = Builder.recordIds [] (d.idCandidates (elementDtds input strict)) := by
  obtain ⟨b, hrun, hfin⟩ := Builder.parse_finish hd
  have hf := Builder.IdsFit.run (Builder.Inv.start strict) (Builder.IdsFit.start strict) hrun
  rw [List.nil_append] at hf
  unfold Builder.finish at hfin
  split at hfin
  · cases hfin
  · have hd' := (Except.ok.inj hfin).symm
    have hn : d.nodes = b.arena.nodes := by rw [hd']; rfl
    have hi : d.ids = b.ids := by rw [hd']
    rw [elements_congr hn, idCandidates_congr hn, hi]
    exact hf

/-- A key names an element exactly when it is not empty and the element is the first in document
order with an ID attribute whose trimmed value is the key; the ID attributes of an element are
those named `id` or `xml:id` and the one that the DTD in force at its start tag declares first for
its name. This holds for documents whose ID values trim alike with the XML blanks and with Unicode
white space. -/
theorem elementById_eq_some_iff (hd : Document.parse input strict = .ok d)
    (htrim : ∀ c ∈ d.idCandidates (elementDtds input strict), Text.trimUnicode c.1 = Text.trimXml c.1)
    (k : String) (e : Nat) :
    d.elementById k = some e ↔ k ≠ "" ∧ d.CarriesId (elementDtds input strict) e k ∧
      ∀ e' < e, ¬ d.CarriesId (elementDtds input strict) e' k := by
  obtain ⟨hlen, hids⟩ := parse_ids hd
  have hsorted := idCandidates_sorted hlen.le
  -- an element carries the key exactly when one of its candidates trims to it
  have hcarries : ∀ e', d.CarriesId (elementDtds input strict) e' k ↔
      ∃ c ∈ d.idCandidates (elementDtds input strict), (Text.trimUnicode c.1 == k) = true ∧ c.2 = e' := by
    intro e'
    constructor
    · rintro ⟨i, dtd, he, hdtd, a, ha, hk⟩
      have hc : (a.value, e') ∈ d.idCandidates (elementDtds input strict) :=
        mem_idCandidates.mpr ⟨i, dtd, he, hdtd, a, ha, rfl⟩
      exact ⟨_, hc, by simp [htrim _ hc, hk], rfl⟩
    · rintro ⟨c, hc, hk, rfl⟩
      obtain ⟨i, dtd, he, hdtd, a, ha, hv⟩ := mem_idCandidates.mp hc
      exact ⟨i, dtd, he, hdtd, a, ha, by rw [hv, ← htrim c hc]; simpa using hk⟩
  rw [elementById, hids, Builder.find?_recordIds k _ [] (by simp)]
  by_cases hk : k = ""
  · simp [hk]
  · simp only [List.find?_nil, Option.map_none, Option.none_or, if_neg hk, find?_snd_eq_some hsorted,
      hcarries]
    constructor
    · rintro ⟨hex, hleast⟩
      refine ⟨hk, hex, fun e' he' ⟨c, hc, hq, hce⟩ => ?_⟩
      have := hleast c hc hq
      omega
    · rintro ⟨-, hex, hnone⟩
      refine ⟨hex, fun c hc hq => ?_⟩
      by_contra hlt
      exact hnone c.2 (by omega) ⟨c, hc, hq, rfl⟩

/-- An ID attribute declared by the DTD names its element. -/
theorem elementById_of_declared_id :
    ∃ d, Document.parse "<!DOCTYPE r [<!ATTLIST item key ID #IMPLIED>]><r><item key='k1'/></r>".toUTF8.toList true = .ok d ∧
      (∀ c ∈ d.idCandidates (elementDtds "<!DOCTYPE r [<!ATTLIST item key ID #IMPLIED>]><r><item key='k1'/></r>".toUTF8.toList true),
        Text.trimUnicode c.1 = Text.trimXml c.1) ∧
      d.CarriesId (elementDtds "<!DOCTYPE r [<!ATTLIST item key ID #IMPLIED>]><r><item key='k1'/></r>".toUTF8.toList true) 2 "k1" := by
  have hok : ((Document.parse "<!DOCTYPE r [<!ATTLIST item key ID #IMPLIED>]><r><item key='k1'/></r>".toUTF8.toList true).toOption.map
      fun d => (d.idCandidates (elementDtds "<!DOCTYPE r [<!ATTLIST item key ID #IMPLIED>]><r><item key='k1'/></r>".toUTF8.toList true),
        d.elementById "k1")) = some ([("k1", 2)], some 2) := by decide +kernel
  cases hd : Document.parse "<!DOCTYPE r [<!ATTLIST item key ID #IMPLIED>]><r><item key='k1'/></r>".toUTF8.toList true with
  | error e => rw [hd] at hok; cases hok
  | ok d =>
    rw [hd] at hok
    simp only [Except.toOption, Option.map_some, Option.some.injEq, Prod.mk.injEq] at hok
    have htrim : ∀ c ∈ d.idCandidates (elementDtds "<!DOCTYPE r [<!ATTLIST item key ID #IMPLIED>]><r><item key='k1'/></r>".toUTF8.toList true),
        Text.trimUnicode c.1 = Text.trimXml c.1 := by
      rw [hok.1]
      decide +kernel
    exact ⟨d, rfl, htrim, ((elementById_eq_some_iff hd htrim "k1" 2).mp hok.2).2.1⟩

/-- Only the first ID attribute that a DTD declares for an element type counts: here `b` is
declared with type ID after `a`, and the value of `b` names no element. -/
theorem elementById_ignores_later_declared_id :
    (Document.parse "<!DOCTYPE r [<!ATTLIST item a ID #IMPLIED b ID #IMPLIED>]><r><item b='k'/></r>".toUTF8.toList true).toOption.map
      (fun d => (d.name? 2, d.attribute? 2 "b", d.elementById "k")) = some (some "item", some "k", none) := by
  decide +kernel

end Document

end XmlPointer
