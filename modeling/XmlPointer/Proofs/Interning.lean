import Mathlib
import XmlPointer.Document.StringPool

/-! # Interning

A pool holds a list of strings in id order (`Holds`): the empty string first and each string
once, every id in the index under the hash of its string, and the bytes of every id within the
buffer. Interning keeps this, whatever the hash does, appending a string it has not seen
(`Holds.internWith`): strings of one hash are told apart by comparing them. Offsets, lengths and
ids are 32-bit, so this holds while the buffer stays below 2^32 bytes; every string but the
empty one takes a byte, so the ids fit too. After any run of interning (`internAll`) within that
bound, the ids are the positions of the strings among the distinct strings in the order they
first came, the empty string being the first (`internAll_spec`). -/
namespace XmlPointer.StringPool

variable {hashOf : String → UInt64} {p : StringPool} {strs : List String} {s : String}

section Buffer

theorem fromUTF8?_toByteArray (s : String) : String.fromUTF8? s.toByteArray = some s := by
  simp only [String.fromUTF8?, s.isValidUTF8, dite_true]
  rfl

theorem extract_append_of_le {a b : ByteArray} {i j : Nat} (h : j ≤ a.size) :
    (a ++ b).extract i j = a.extract i j := by
  have hb : b.extract (i - a.size) (j - a.size) = ByteArray.empty :=
    ByteArray.extract_eq_empty_iff.mpr (by omega)
  rw [ByteArray.extract_append, hb, ByteArray.append_empty]

theorem get_eq_of_entry {i o l : UInt32} (h : p.entries[i.toNat]? = some (o, l))
    (hw : o.toNat + l.toNat ≤ p.data.utf8ByteSize) :
    p.get i = (String.fromUTF8? (p.data.toByteArray.extract o.toNat (o.toNat + l.toNat))).getD "" := by
  simp [get, h, hw]

theorem get_push_lt {i : UInt32} (hi : i.toNat < p.entries.size)
    (hw : ∀ e ∈ p.entries, e.1.toNat + e.2.toNat ≤ p.data.utf8ByteSize) :
    (p.push hashOf s).get i = p.get i := by
  have hwi := hw _ (Array.getElem_mem hi)
  have hle : p.data.utf8ByteSize ≤ (p.push hashOf s).data.utf8ByteSize := by
    simp [push, String.utf8ByteSize_append]
  rw [get_eq_of_entry (o := p.entries[i.toNat].1) (l := p.entries[i.toNat].2)
      (by simp [push, Array.getElem?_push_lt hi]) (by omega),
    get_eq_of_entry (by simp [hi]) hwi]
  simp only [push, String.toByteArray_append]
  rw [extract_append_of_le (by simpa using hwi)]

theorem get_push_size (hfit : (p.data ++ s).utf8ByteSize < 2 ^ 32) (hn : p.entries.size < 2 ^ 32) :
    (p.push hashOf s).get (.ofNat p.entries.size) = s := by
  have hsize : p.data.utf8ByteSize + s.utf8ByteSize < 2 ^ 32 := by
    rwa [String.utf8ByteSize_append] at hfit
  have ho : (UInt32.ofNat p.data.utf8ByteSize).toNat = p.data.utf8ByteSize :=
    UInt32.toNat_ofNat_of_lt' (by simp [UInt32.size]; omega)
  have hl : (UInt32.ofNat s.utf8ByteSize).toNat = s.utf8ByteSize :=
    UInt32.toNat_ofNat_of_lt' (by simp [UInt32.size]; omega)
  have hentry : (p.push hashOf s).entries[(UInt32.ofNat p.entries.size).toNat]? =
      some (.ofNat p.data.utf8ByteSize, .ofNat s.utf8ByteSize) := by
    have hn' : p.entries.size % 4294967296 = p.entries.size := Nat.mod_eq_of_lt hn
    simp [push, UInt32.toNat_ofNat', hn']
  rw [get_eq_of_entry hentry (by simp [push, ho, hl, String.utf8ByteSize_append])]
  simp only [push, String.toByteArray_append, ho, hl]
  have he : (p.data.toByteArray ++ s.toByteArray).extract p.data.utf8ByteSize
      (p.data.utf8ByteSize + s.utf8ByteSize) = s.toByteArray :=
    ByteArray.extract_append_eq_right rfl rfl
  rw [he, fromUTF8?_toByteArray]
  rfl

theorem push_index (k : UInt64) : (p.push hashOf s).index k =
    if k = hashOf s then (p.index k).push (.ofNat p.entries.size) else p.index k :=
  rfl

theorem get_push_gt {i : UInt32} (hi : p.entries.size < i.toNat) : (p.push hashOf s).get i = "" := by
  simp [get, push, Array.getElem?_push, hi.ne', show ¬ i.toNat < p.entries.size by omega]

end Buffer

/-- The pool holds the strings `strs` in id order: the empty string first and each string once,
each id under the hash of its string in the index, the bytes of each id within the buffer, and
no more strings than the buffer has bytes, the empty string apart. -/
structure Holds (hashOf : String → UInt64) (p : StringPool) (strs : List String) : Prop where
  head : strs.head? = some ""
  nodup : strs.Nodup
  size : p.entries.size = strs.length
  get : ∀ i : UInt32, p.get i = strs.getD i.toNat ""
  within : ∀ e ∈ p.entries, e.1.toNat + e.2.toNat ≤ p.data.utf8ByteSize
  indexed : ∀ i (h : i < strs.length), 0 < i → UInt32.ofNat i ∈ p.index (hashOf strs[i])
  count : strs.length ≤ p.data.utf8ByteSize + 1

theorem holds_empty : Holds hashOf {} [""] where
  head := rfl
  nodup := by simp
  size := rfl
  get i := by
    by_cases hi : i.toNat = 0
    · have he : String.fromUTF8? ByteArray.empty = some "" := fromUTF8?_toByteArray ""
      rw [get_eq_of_entry (o := 0) (l := 0) (by simp [hi]) (by simp)]
      simp [he, hi]
    · simp [get, hi]
  within := by simp
  indexed i h hi := by simp at h; omega
  count := by simp

namespace Holds

variable (h : Holds hashOf p strs)
include h

theorem empty_mem : "" ∈ strs :=
  List.mem_of_mem_head? h.head

theorem idxOf_empty : strs.idxOf "" = 0 := by
  obtain ⟨rest, hs⟩ := List.head?_eq_some_iff.mp h.head
  simp [hs]

theorem toNat_ofNat_of_lt (hfit : p.data.utf8ByteSize < 2 ^ 32) {i : Nat}
    (hi : i < strs.length) : (UInt32.ofNat i).toNat = i := by
  have := h.count
  exact UInt32.toNat_ofNat_of_lt' (by simp [UInt32.size]; omega)

theorem get_idxOf (hfit : p.data.utf8ByteSize < 2 ^ 32) (hm : s ∈ strs) :
    p.get (.ofNat (strs.idxOf s)) = s := by
  have hlt := List.idxOf_lt_length_of_mem hm
  rw [h.get, h.toNat_ofNat_of_lt hfit hlt, List.getD_eq_getElem _ _ hlt, List.getElem_idxOf]

theorem idxOf_of_get {i : UInt32} (hget : p.get i = s) (hs : s ≠ "") :
    s ∈ strs ∧ strs.idxOf s = i.toNat := by
  rw [h.get] at hget
  by_cases hi : i.toNat < strs.length
  · rw [List.getD_eq_getElem _ _ hi] at hget
    subst hget
    exact ⟨List.getElem_mem hi, h.nodup.idxOf_getElem _ hi⟩
  · rw [List.getD_eq_default _ _ (by omega)] at hget
    exact absurd hget.symm hs

theorem find?_eq (hfit : p.data.utf8ByteSize < 2 ^ 32) (hs : s ≠ "") :
    p.find? hashOf s = if s ∈ strs then some (.ofNat (strs.idxOf s)) else none := by
  unfold find?
  split_ifs with hm
  · -- the id of `s` is among the ids of its hash, and no other id reads as `s`
    have hpos : 0 < strs.idxOf s := by
      rcases Nat.eq_zero_or_pos (strs.idxOf s) with h0 | h0
      · have := h.get_idxOf hfit hm
        rw [h0, ← h.idxOf_empty, h.get_idxOf hfit h.empty_mem] at this
        exact absurd this.symm hs
      · exact h0
    have hlt := List.idxOf_lt_length_of_mem hm
    have hin : UInt32.ofNat (strs.idxOf s) ∈ p.index (hashOf s) := by
      simpa [List.getElem_idxOf] using h.indexed _ hlt hpos
    cases hf : (p.index (hashOf s)).find? (p.get · == s) with
    | none =>
      rw [Array.find?_eq_none] at hf
      exact absurd (by simpa using h.get_idxOf hfit hm) (hf _ hin)
    | some id =>
      have hget : p.get id = s := by simpa using Array.find?_some hf
      rw [(h.idxOf_of_get hget hs).2, UInt32.ofNat_toNat]
  · rw [Array.find?_eq_none]
    intro id _ hget
    exact hm (h.idxOf_of_get (by simpa using hget) hs).1

theorem lookupWith_eq (hfit : p.data.utf8ByteSize < 2 ^ 32) :
    p.lookupWith hashOf s = if s ∈ strs then some (.ofNat (strs.idxOf s)) else none := by
  unfold lookupWith
  by_cases hs : s = ""
  · subst hs
    simp [h.empty_mem, h.idxOf_empty]
  · simp [String.isEmpty, hs, h.find?_eq hfit hs]

theorem internWith_of_mem (hfit : p.data.utf8ByteSize < 2 ^ 32) (hm : s ∈ strs) :
    p.internWith hashOf s = (p, .ofNat (strs.idxOf s)) := by
  unfold internWith
  by_cases hs : s = ""
  · subst hs
    simp [h.idxOf_empty]
  · simp [String.isEmpty, hs, h.find?_eq hfit hs, hm]

theorem internWith_of_not_mem (hfit : p.data.utf8ByteSize < 2 ^ 32) (hm : s ∉ strs) :
    p.internWith hashOf s = (p.push hashOf s, .ofNat strs.length) := by
  have hs : s ≠ "" := fun e => hm (e ▸ h.empty_mem)
  unfold internWith
  simp [String.isEmpty, hs, h.find?_eq hfit hs, hm, h.size]

/-- A new string is held after the others while the buffer stays below 2^32 bytes. -/
theorem push (hm : s ∉ strs) (hfit : (p.data ++ s).utf8ByteSize < 2 ^ 32) :
    Holds hashOf (p.push hashOf s) (strs ++ [s]) where
  head := by
    have hne : strs ≠ [] := by
      rintro rfl
      exact absurd h.head (by simp)
    rw [List.head?_append_of_ne_nil _ hne, h.head]
  nodup := by
    simpa [List.nodup_append] using ⟨h.nodup, fun a ha e => hm (e ▸ ha)⟩
  size := by simp [StringPool.push, h.size]
  get i := by
    rcases Nat.lt_trichotomy i.toNat strs.length with hi | hi | hi
    · rw [get_push_lt (by rw [h.size]; exact hi) h.within, h.get, List.getD_append _ _ _ _ hi]
    · have hn : p.entries.size < 2 ^ 32 := by
        have := UInt32.toNat_lt i
        rw [h.size]
        omega
      rw [← UInt32.ofNat_toNat (x := i), hi, ← h.size, get_push_size hfit hn, h.size, ← hi,
        UInt32.ofNat_toNat, hi]
      simp
    · rw [get_push_gt (by rw [h.size]; exact hi), List.getD_eq_default _ _ (by simp; omega)]
  within e he := by
    have hsize : p.data.utf8ByteSize + s.utf8ByteSize < 2 ^ 32 := by
      rwa [String.utf8ByteSize_append] at hfit
    simp only [StringPool.push, Array.mem_push] at he
    simp only [StringPool.push, String.utf8ByteSize_append]
    rcases he with he | rfl
    · have := h.within e he
      omega
    · simp only [UInt32.toNat_ofNat']
      omega
  indexed i hi hpos := by
    simp only [List.length_append, List.length_singleton] at hi
    rcases Nat.lt_or_ge i strs.length with hlt | hge
    · have hold := h.indexed i hlt hpos
      rw [List.getElem_append_left hlt, push_index]
      split_ifs
      · exact Array.mem_push_of_mem _ hold
      · exact hold
    · obtain rfl : i = strs.length := by omega
      rw [List.getElem_append_right (by omega), push_index]
      simp [h.size]
  count := by
    -- a new string is not the empty one, so it brings a byte at least
    have hs : s ≠ "" := fun e => hm (e ▸ h.empty_mem)
    have hpos : 0 < s.utf8ByteSize := by
      rcases Nat.eq_zero_or_pos s.utf8ByteSize with h0 | h0
      · exact absurd (String.utf8ByteSize_eq_zero_iff.mp h0) hs
      · exact h0
    have := h.count
    simp only [StringPool.push, String.utf8ByteSize_append, List.length_append,
      List.length_singleton]
    omega

end Holds

section Runs

def addNew (strs : List String) (s : String) : List String :=
  if s ∈ strs then strs else strs ++ [s]

theorem mem_addNew_self (strs : List String) (s : String) : s ∈ addNew strs s := by
  unfold addNew
  split_ifs with hm
  · exact hm
  · simp

theorem data_le_internWith (p : StringPool) (s : String) :
    p.data.utf8ByteSize ≤ (p.internWith hashOf s).1.data.utf8ByteSize := by
  unfold internWith
  split
  · exact le_rfl
  · split
    · exact le_rfl
    · simp [StringPool.push, String.utf8ByteSize_append]

theorem Holds.internWith (h : Holds hashOf p strs) (s : String)
    (hfit : (p.internWith hashOf s).1.data.utf8ByteSize < 2 ^ 32) :
    Holds hashOf (p.internWith hashOf s).1 (addNew strs s) ∧
      (p.internWith hashOf s).2 = .ofNat ((addNew strs s).idxOf s) := by
  have hp : p.data.utf8ByteSize < 2 ^ 32 := lt_of_le_of_lt (data_le_internWith p s) hfit
  unfold addNew
  split_ifs with hm
  · rw [h.internWith_of_mem hp hm]
    exact ⟨h, rfl⟩
  · rw [h.internWith_of_not_mem hp hm] at hfit ⊢
    exact ⟨h.push hm hfit, by simp [List.idxOf_append_of_notMem hm]⟩

/-- Interns the strings in turn: the pool at the end, and the id each string got. -/
def internAll (hashOf : String → UInt64) (p : StringPool) : List String → StringPool × List UInt32
  | [] => (p, [])
  | s :: ss =>
    let r := internAll hashOf (p.internWith hashOf s).1 ss
    (r.1, (p.internWith hashOf s).2 :: r.2)

theorem data_le_internAll (p : StringPool) (ss : List String) :
    p.data.utf8ByteSize ≤ (internAll hashOf p ss).1.data.utf8ByteSize := by
  induction ss generalizing p with
  | nil => exact le_rfl
  | cons s ss ih => exact le_trans (data_le_internWith p s) (ih _)

theorem data_le_internAll_append (p : StringPool) (ss ss' : List String) :
    (internAll hashOf p ss).1.data.utf8ByteSize ≤
      (internAll hashOf p (ss ++ ss')).1.data.utf8ByteSize := by
  induction ss generalizing p with
  | nil => exact data_le_internAll p ss'
  | cons s ss ih => exact ih _

theorem prefix_foldl_addNew (strs ss : List String) : strs <+: ss.foldl addNew strs := by
  induction ss generalizing strs with
  | nil => exact List.prefix_refl strs
  | cons s ss ih =>
    refine List.IsPrefix.trans ?_ (ih (addNew strs s))
    unfold addNew
    split_ifs
    · exact List.prefix_refl strs
    · exact List.prefix_append strs [s]

theorem mem_foldl_addNew {strs ss : List String} {t : String} :
    t ∈ ss.foldl addNew strs ↔ t ∈ strs ∨ t ∈ ss := by
  induction ss generalizing strs with
  | nil => simp
  | cons s ss ih =>
    rw [List.foldl_cons, ih]
    unfold addNew
    split_ifs with hm
    · constructor
      · rintro (h | h)
        · exact .inl h
        · exact .inr (List.mem_cons_of_mem s h)
      · rintro (h | h)
        · exact .inl h
        · rcases List.mem_cons.mp h with rfl | h
          · exact .inl hm
          · exact .inr h
    · simp [or_assoc, or_left_comm]

theorem Holds.internAll (h : Holds hashOf p strs) (ss : List String)
    (hfit : (internAll hashOf p ss).1.data.utf8ByteSize < 2 ^ 32) :
    Holds hashOf (internAll hashOf p ss).1 (ss.foldl addNew strs) ∧
      (internAll hashOf p ss).2 = ss.map fun s => .ofNat ((ss.foldl addNew strs).idxOf s) := by
  induction ss generalizing p strs with
  | nil => exact ⟨h, rfl⟩
  | cons s ss ih =>
    have hfit1 : (p.internWith hashOf s).1.data.utf8ByteSize < 2 ^ 32 :=
      lt_of_le_of_lt (data_le_internAll _ ss) hfit
    obtain ⟨h1, hid⟩ := h.internWith s hfit1
    obtain ⟨h2, hids⟩ := ih h1 hfit
    refine ⟨h2, ?_⟩
    -- the position of `s` when it was interned stays its position
    obtain ⟨rest, hrest⟩ := prefix_foldl_addNew (addNew strs s) ss
    simp only [StringPool.internAll, List.foldl_cons, List.map_cons, hids, hid]
    rw [← hrest, List.idxOf_append_of_mem (mem_addNew_self strs s)]

theorem length_foldl_addNew {strs : List String} (ss : List String)
    (hf : (ss.foldl addNew strs).Nodup) :
    (ss.foldl addNew strs).length = (strs.toFinset ∪ ss.toFinset).card := by
  rw [← List.toFinset_card_of_nodup hf]
  congr 1
  ext t
  simp [mem_foldl_addNew]

theorem idxOf_foldl_addNew_of_new {strs ss : List String} {k : Nat} {s : String}
    (hk : ss[k]? = some s) (hnew : s ∉ (ss.take k).foldl addNew strs) :
    (ss.foldl addNew strs).idxOf s = ((ss.take k).foldl addNew strs).length := by
  obtain ⟨hklt, hks⟩ := List.getElem?_eq_some_iff.mp hk
  have hdrop : ss.drop k = s :: ss.drop (k + 1) := by rw [List.drop_eq_getElem_cons hklt, hks]
  have hsplit : ss.foldl addNew strs =
      (ss.drop (k + 1)).foldl addNew ((ss.take k).foldl addNew strs ++ [s]) := by
    conv_lhs => rw [← List.take_append_drop k ss]
    rw [List.foldl_append, hdrop, List.foldl_cons]
    simp [addNew, hnew]
  obtain ⟨rest, hrest⟩ :=
    prefix_foldl_addNew ((ss.take k).foldl addNew strs ++ [s]) (ss.drop (k + 1))
  rw [hsplit, ← hrest, List.idxOf_append_of_mem (by simp), List.idxOf_append_of_notMem hnew]
  simp

theorem mem_zip_map_self {ss : List String} {f : String → UInt32} {s : String} {n : UInt32}
    (h : (s, n) ∈ ss.zip (ss.map f)) : s ∈ ss ∧ n = f s := by
  induction ss with
  | nil => simp at h
  | cons a ss ih =>
    simp only [List.map_cons, List.zip_cons_cons, List.mem_cons, Prod.mk.injEq] at h
    rcases h with ⟨rfl, rfl⟩ | h
    · exact ⟨List.mem_cons_self, rfl⟩
    · exact (ih h).imp_left (List.mem_cons_of_mem a)

end Runs

/-- Whatever values the hash takes, as long as fewer than 2^32 bytes are interned: after
interning a list of strings in turn from a new pool, every id read back is its string; two ids
are equal exactly when their strings are; the id 0 is given to the empty string only; a string
interned first gets the count of distinct strings interned before it, the empty string
included; a lookup finds the id interning would give for the empty string and for every string
interned, and nothing for any other; and an id never given reads as the empty string. -/
theorem internAll_spec (hashOf : String → UInt64) (ss : List String)
    (hfit : (internAll hashOf {} ss).1.bytesUsed < 2 ^ 32) :
    let p := (internAll hashOf {} ss).1
    let ids := (internAll hashOf {} ss).2
    (∀ s id, (s, id) ∈ ss.zip ids → p.get id = s) ∧
    (∀ s id t id', (s, id) ∈ ss.zip ids → (t, id') ∈ ss.zip ids → (id = id' ↔ s = t)) ∧
    (∀ s id, (s, id) ∈ ss.zip ids → (id = 0 ↔ s = "")) ∧
    (∀ k s, ss[k]? = some s → s ∉ "" :: ss.take k →
      ids[k]? = some (.ofNat (insert "" (ss.take k).toFinset).card)) ∧
    (∀ s, p.lookupWith hashOf s =
      if s = "" ∨ s ∈ ss then some (p.internWith hashOf s).2 else none) ∧
    (∀ i, i ∉ ids → p.get i = "") := by
  intro p ids
  obtain ⟨h, hids⟩ := (holds_empty : Holds hashOf {} [""]).internAll ss hfit
  set F := ss.foldl addNew [""] with hF
  have hmem : ∀ {t}, t ∈ F ↔ t = "" ∨ t ∈ ss := by
    intro t
    simp [hF, mem_foldl_addNew]
  -- every string given an id is held, and its id is its position, which fits in 32 bits
  have zipped : ∀ {s id}, (s, id) ∈ ss.zip ids → s ∈ F ∧ id = .ofNat (F.idxOf s) := by
    intro s id hz
    rw [show ids = ss.map fun s => .ofNat (F.idxOf s) from hids] at hz
    obtain ⟨hs, rfl⟩ := mem_zip_map_self hz
    exact ⟨hmem.mpr (.inr hs), rfl⟩
  have hpos : ∀ {s}, s ∈ F → (UInt32.ofNat (F.idxOf s)).toNat = F.idxOf s := fun hs =>
    h.toNat_ofNat_of_lt hfit (List.idxOf_lt_length_of_mem hs)
  have hinj : ∀ {s t}, s ∈ F → t ∈ F →
      ((UInt32.ofNat (F.idxOf s)) = .ofNat (F.idxOf t) ↔ s = t) := by
    intro s t hs ht
    rw [← UInt32.toNat_inj, hpos hs, hpos ht]
    exact List.idxOf_inj hs
  refine ⟨?_, ?_, ?_, ?_, ?_, ?_⟩
  · intro s id hz
    obtain ⟨hs, rfl⟩ := zipped hz
    exact h.get_idxOf hfit hs
  · intro s id t id' hz hz'
    obtain ⟨hs, rfl⟩ := zipped hz
    obtain ⟨ht, rfl⟩ := zipped hz'
    exact hinj hs ht
  · intro s id hz
    obtain ⟨hs, rfl⟩ := zipped hz
    have h0 : (0 : UInt32) = .ofNat (F.idxOf "") := by rw [h.idxOf_empty]; rfl
    rw [h0]
    exact hinj hs h.empty_mem
  · intro k s hk hnew
    obtain ⟨hG, -⟩ := (holds_empty : Holds hashOf {} [""]).internAll (ss.take k)
      (lt_of_le_of_lt (by simpa using data_le_internAll_append {} (ss.take k) (ss.drop k))
        (show (internAll hashOf {} ss).1.data.utf8ByteSize < 2 ^ 32 from hfit))
    have hsG : s ∉ (ss.take k).foldl addNew [""] := by
      rw [mem_foldl_addNew]
      simpa [not_or] using hnew
    rw [show ids = ss.map fun s => .ofNat (F.idxOf s) from hids, List.getElem?_map, hk,
      Option.map_some, idxOf_foldl_addNew_of_new hk hsG, length_foldl_addNew _ hG.nodup]
    simp
  · intro s
    rw [h.lookupWith_eq hfit]
    by_cases hs : s ∈ F
    · rw [if_pos hs, if_pos (hmem.mp hs), h.internWith_of_mem hfit hs]
    · rw [if_neg hs, if_neg (fun e => hs (hmem.mpr e))]
  · intro i hi
    by_contra hne
    -- a non-empty string read from `i` is held at position `i`, so `i` was given to it
    obtain ⟨hs, hid⟩ := h.idxOf_of_get rfl hne
    apply hi
    rw [show ids = ss.map fun s => .ofNat (F.idxOf s) from hids, ← UInt32.ofNat_toNat (x := i),
      ← hid]
    exact List.mem_map_of_mem ((hmem.mp hs).resolve_left hne)

/-- With one hash for every string, `b` interned after `a` still gets an id of its own. -/
theorem internAll_colliding_ids :
    (internAll (fun _ => 0) {} ["a", "b"]).2[1]? = some 2 := by
  have h := (internAll_spec (fun _ => 0) ["a", "b"] (by decide)).2.2.2.1 1 "b" rfl (by decide)
  rw [h]
  decide

end XmlPointer.StringPool
