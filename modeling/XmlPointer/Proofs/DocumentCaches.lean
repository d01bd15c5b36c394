import Mathlib
import XmlPointer.Stream.Cache

/-! # The document cache over any run of calls

The cache is read through `entryOf`, the document under an identifier, live or not. Each call is
described by what it does to `entryOf` (a lookup keeps a live entry and drops a dead one, a store
puts its document first, a purge keeps the live entries) and by the two facts every call
preserves: the cache is `WellFormed` (at most `capacity` entries, one per identifier) and
`Coherent` with the log of stores (each entry is the latest store under its identifier). A run
of calls from an empty cache keeps both (`runCalls_invariant`), so whatever the calls and the
documents dropped between them, the next lookup or materialization behaves as its lemma says
(`calls_serve_latest_live`). -/
namespace XmlPointer

namespace DocumentCache

def entryOf (c : DocumentCache) (uri : String) : Option SharedDocument :=
  (c.entries.find? (·.1 == uri)).map (·.2)

/-- A cache as the store keeps it: a positive capacity, at most that many entries, and one entry
per identifier. -/
structure WellFormed (c : DocumentCache) : Prop where
  capacity_pos : 0 < c.capacity
  bounded : c.entries.length ≤ c.capacity
  keys_nodup : (c.entries.map (·.1)).Nodup

variable {c : DocumentCache} {u v : String} {d : SharedDocument} {live : List Nat}

theorem mem_of_entryOf_eq_some (h : c.entryOf u = some d) : (u, d) ∈ c.entries := by
  obtain ⟨e, he, rfl⟩ := Option.map_eq_some_iff.mp h
  have hu : e.1 = u := by simpa using List.find?_some he
  rw [← hu]
  exact List.mem_of_find?_eq_some he

theorem entryOf_eq_some_iff (hk : (c.entries.map (·.1)).Nodup) :
    c.entryOf u = some d ↔ (u, d) ∈ c.entries := by
  refine ⟨mem_of_entryOf_eq_some, fun h => ?_⟩
  cases he : c.entries.find? (·.1 == u) with
  | none => exact absurd h (by simpa using List.find?_eq_none.mp he (u, d))
  | some e =>
    -- the entry found has the identifier, so it is the one pair with it
    have hu : e.1 = u := by simpa using List.find?_some he
    have heq : e = (u, d) := List.inj_on_of_nodup_map hk (List.mem_of_find?_eq_some he) h hu
    simp [entryOf, he, heq]

theorem mem_erase {e : String × SharedDocument} : e ∈ (c.erase u).entries ↔ e ∈ c.entries ∧ e.1 ≠ u := by
  simp [erase]

theorem entryOf_erase : (c.erase u).entryOf v = if v = u then none else c.entryOf v := by
  simp only [entryOf, erase, List.find?_filter]
  split
  · rename_i h
    subst h
    simp
  · rename_i h
    congr 2
    funext e
    by_cases he : e.1 = v
    · simp [he, h]
    · simp [he]

theorem erase_of_entryOf_eq_none (h : c.entryOf u = none) : c.erase u = c := by
  have hnone : ∀ e ∈ c.entries, e.1 ≠ u := by
    intro e he heu
    have hfind : c.entries.find? (·.1 == u) = none := by simpa [entryOf] using h
    exact List.find?_eq_none.mp hfind e he (by simp [heu])
  simp only [erase]
  rw [List.filter_eq_self.mpr (fun e he => by simpa using hnone e he)]

theorem mem_store {e : String × SharedDocument} (he : e ∈ (c.store u d).entries) :
    e = (u, d) ∨ (e ∈ c.entries ∧ e.1 ≠ u) := by
  simp only [store] at he
  rcases List.mem_cons.mp (List.mem_of_mem_take he) with rfl | he
  · exact .inl rfl
  · exact .inr (mem_erase.mp he)

theorem entryOf_store (hc : 0 < c.capacity) : (c.store u d).entryOf u = some d := by
  obtain ⟨k, hk⟩ : ∃ k, c.capacity = k + 1 := ⟨c.capacity - 1, by omega⟩
  simp [entryOf, store, hk]

theorem entryOf_promote :
    ({ c with entries := (u, d) :: (c.erase u).entries } : DocumentCache).entryOf v =
      if v = u then some d else c.entryOf v := by
  by_cases h : v = u
  · subst h
    simp [entryOf]
  · have hne : (u == v) = false := by simpa using Ne.symm h
    have hrest := entryOf_erase (c := c) (u := u) (v := v)
    rw [if_neg h] at hrest
    simp only [entryOf, List.find?_cons, hne, if_neg h] at hrest ⊢
    exact hrest

theorem lookup_of_entryOf_none (h : c.entryOf u = none) : c.lookup live u = (none, c) := by
  have hf : c.entries.find? (·.1 == u) = none := by simpa [entryOf] using h
  simp only [lookup, hf]

theorem lookup_of_entryOf_some (h : c.entryOf u = some d) :
    c.lookup live u = if live.contains d.handle then
      (some d, { c with entries := (u, d) :: (c.erase u).entries }) else (none, c.erase u) := by
  obtain ⟨e, hf, rfl⟩ := Option.map_eq_some_iff.mp h
  simp only [lookup, hf]

theorem lookup_cases (c : DocumentCache) (live : List Nat) (u : String) :
    (c.entryOf u = none ∧ c.lookup live u = (none, c)) ∨
    (∃ d, c.entryOf u = some d ∧ live.contains d.handle = true ∧
      c.lookup live u = (some d, { c with entries := (u, d) :: (c.erase u).entries })) ∨
    (∃ d, c.entryOf u = some d ∧ live.contains d.handle = false ∧
      c.lookup live u = (none, c.erase u)) := by
  cases hd : c.entryOf u with
  | none => exact .inl ⟨rfl, lookup_of_entryOf_none hd⟩
  | some d =>
    right
    cases hl : live.contains d.handle with
    | true => exact .inl ⟨d, rfl, hl, by rw [lookup_of_entryOf_some hd, if_pos hl]⟩
    | false => exact .inr ⟨d, rfl, hl, by rw [lookup_of_entryOf_some hd, hl, if_neg Bool.false_ne_true]⟩

theorem lookup_fst : (c.lookup live u).1 = (c.entryOf u).filter (fun d => live.contains d.handle) := by
  rcases lookup_cases c live u with ⟨hd, hl⟩ | ⟨d, hd, hlive, hl⟩ | ⟨d, hd, hdead, hl⟩ <;> rw [hl, hd]
  · rfl
  · simpa [Option.filter] using hlive
  · simpa [Option.filter] using hdead

theorem entryOf_lookup :
    (c.lookup live u).2.entryOf v = if v = u then (c.lookup live u).1 else c.entryOf v := by
  rcases lookup_cases c live u with ⟨hd, hl⟩ | ⟨d, -, -, hl⟩ | ⟨d, -, -, hl⟩ <;> rw [hl]
  · by_cases hv : v = u
    · subst hv
      simpa using hd
    · simp [hv]
  · exact entryOf_promote
  · exact entryOf_erase

theorem lookup_snd_of_miss (h : (c.lookup live u).1 = none) : (c.lookup live u).2 = c.erase u := by
  rcases lookup_cases c live u with ⟨hd, hl⟩ | ⟨d, -, -, hl⟩ | ⟨d, -, -, hl⟩ <;> rw [hl] at h ⊢
  · exact (erase_of_entryOf_eq_none hd).symm
  · cases h

theorem lookup_capacity : (c.lookup live u).2.capacity = c.capacity := by
  rcases lookup_cases c live u with ⟨-, hl⟩ | ⟨d, -, -, hl⟩ | ⟨d, -, -, hl⟩ <;> simp [hl, erase]

theorem lookup_fst_eq_some_iff :
    (c.lookup live u).1 = some d ↔ c.entryOf u = some d ∧ live.contains d.handle = true := by
  rw [lookup_fst, Option.filter_eq_some_iff]

theorem lookup_fst_eq_none_iff :
    (c.lookup live u).1 = none ↔ ∀ d, c.entryOf u = some d → live.contains d.handle = false := by
  rw [lookup_fst, Option.filter_eq_none_iff]
  simp

theorem storeOutcome_ok {ε : Type} : c.storeOutcome u (.ok d : Except ε SharedDocument) = c.store u d := rfl

theorem storeOutcome_error {ε : Type} (e : ε) : c.storeOutcome u (.error e : Except ε SharedDocument) = c := rfl

section Materialize

variable {m : Type → Type} [Monad m] {ε : Type} (f : m (Except ε SharedDocument))

theorem getOrMaterialize_hit (hd : c.entryOf u = some d) (hl : live.contains d.handle = true) :
    c.getOrMaterialize live u f = pure (.ok d, (c.lookup live u).2) := by
  have hfst : (c.lookup live u).1 = some d := by
    rw [lookup_fst, hd]
    simpa [Option.filter] using hl
  unfold getOrMaterialize
  rcases hlk : c.lookup live u with ⟨_ | d', c'⟩
  · rw [hlk] at hfst
    cases hfst
  · rw [hlk] at hfst
    cases hfst
    rfl

theorem getOrMaterialize_miss (h : ∀ d, c.entryOf u = some d → live.contains d.handle = false) :
    c.getOrMaterialize live u f = f >>= fun r => pure (r, (c.erase u).storeOutcome u r) := by
  have hfst : (c.lookup live u).1 = none := by
    rw [lookup_fst]
    cases hd : c.entryOf u with
    | none => rfl
    | some d => simpa [Option.filter] using h d hd
  have hsnd := lookup_snd_of_miss hfst
  unfold getOrMaterialize
  rcases hlk : c.lookup live u with ⟨_ | d', c'⟩
  · rw [hlk] at hsnd
    cases hsnd
    rfl
  · rw [hlk] at hfst
    cases hfst

end Materialize

theorem purge_entries : (c.purge live).2.entries = c.entries.filter fun e => live.contains e.2.handle := by
  simp [purge, List.partition_eq_filter_filter]

theorem purge_fst : (c.purge live).1 = (c.entries.filter fun e => !live.contains e.2.handle).length := by
  simp [purge, List.partition_eq_filter_filter, Function.comp_def]

theorem liveCount_eq_purge : c.liveCount live = (c.purge live).2.entries.length := by
  rw [purge_entries]
  rfl

theorem purge_fst_add_liveCount : (c.purge live).1 + c.liveCount live = c.entries.length := by
  rw [purge_fst, liveCount, Nat.add_comm]
  exact (List.length_eq_length_filter_add _).symm

theorem keys_nodup_of_sublist {c' : DocumentCache} (hs : c'.entries.Sublist c.entries)
    (hk : (c.entries.map (·.1)).Nodup) : (c'.entries.map (·.1)).Nodup :=
  (hs.map _).nodup hk

theorem entryOf_purge (hk : (c.entries.map (·.1)).Nodup) :
    (c.purge live).2.entryOf v = (c.entryOf v).filter (fun d => live.contains d.handle) := by
  have hk' : ((c.purge live).2.entries.map (·.1)).Nodup :=
    keys_nodup_of_sublist (by rw [purge_entries]; exact List.filter_sublist) hk
  apply Option.ext
  intro d
  rw [entryOf_eq_some_iff hk', purge_entries, List.mem_filter,
    Option.filter_eq_some_iff, entryOf_eq_some_iff hk]

/-! ## What every call keeps -/

namespace WellFormed

variable (h : c.WellFormed)
include h

theorem of_sublist {c' : DocumentCache} (hcap : c'.capacity = c.capacity)
    (hs : c'.entries.Sublist c.entries) : c'.WellFormed where
  capacity_pos := hcap ▸ h.capacity_pos
  bounded := hcap ▸ hs.length_le.trans h.bounded
  keys_nodup := keys_nodup_of_sublist hs h.keys_nodup

theorem erase : (c.erase u).WellFormed :=
  h.of_sublist rfl List.filter_sublist

theorem purge : (c.purge live).2.WellFormed :=
  h.of_sublist rfl (by rw [purge_entries]; exact List.filter_sublist)

theorem clear : c.clear.WellFormed :=
  h.of_sublist rfl (List.nil_sublist _)

theorem nodup_promote : (((u, d) :: (c.erase u).entries).map (·.1)).Nodup := by
  rw [List.map_cons, List.nodup_cons]
  refine ⟨fun hu => ?_, keys_nodup_of_sublist List.filter_sublist h.keys_nodup⟩
  obtain ⟨e, he, heu⟩ := List.mem_map.mp hu
  exact (mem_erase.mp he).2 heu

theorem store : (c.store u d).WellFormed where
  capacity_pos := h.capacity_pos
  bounded := List.length_take_le _ _
  keys_nodup := ((List.take_sublist _ _).map _).nodup h.nodup_promote

theorem lookup : (c.lookup live u).2.WellFormed := by
  rcases lookup_cases c live u with ⟨-, hl⟩ | ⟨d, hd, -, hl⟩ | ⟨d, -, -, hl⟩ <;> rw [hl]
  · exact h
  · -- the entry of `u` moves to the front, so the count stays
    have hmem : (u, d) ∈ c.entries := mem_of_entryOf_eq_some hd
    have hlt : (c.erase u).entries.length < c.entries.length :=
      List.length_filter_lt_length_iff_exists.mpr ⟨(u, d), hmem, by simp⟩
    exact ⟨h.capacity_pos, by simp only [List.length_cons]; have := h.bounded; omega, h.nodup_promote⟩
  · exact h.erase

end WellFormed

def Coherent (log : List (String × SharedDocument)) (c : DocumentCache) : Prop :=
  ∀ u d, (u, d) ∈ c.entries → log.lookup u = some d

namespace Coherent

variable {log : List (String × SharedDocument)} (h : Coherent log c)
include h

theorem of_subset {c' : DocumentCache} (hs : ∀ e ∈ c'.entries, e ∈ c.entries) : Coherent log c' :=
  fun u d he => h u d (hs _ he)

theorem erase : Coherent log (c.erase u) :=
  h.of_subset fun _ he => (mem_erase.mp he).1

theorem store : Coherent ((u, d) :: log) (c.store u d) := by
  intro v d' he
  rw [List.lookup_cons]
  rcases mem_store he with heq | ⟨hmem, hne⟩
  · cases heq
    simp
  · have hv : (v == u) = false := by simpa using hne
    rw [hv]
    exact h v d' hmem

theorem lookup : Coherent log (c.lookup live u).2 := by
  rcases lookup_cases c live u with ⟨-, hl⟩ | ⟨d, hd, -, hl⟩ | ⟨d, -, -, hl⟩ <;> rw [hl]
  · exact h
  · -- the entry moved to the front was in the cache already
    exact h.of_subset fun e he => (List.mem_cons.mp he).elim (· ▸ mem_of_entryOf_eq_some hd)
      fun he => (mem_erase.mp he).1
  · exact h.erase

end Coherent

/-! ## Runs of calls -/

/-- A call on a cache. A materializer is given by what it returns when it runs. -/
inductive Call (ε : Type) where
  | get (uri : String)
  | getOrMaterialize (uri : String) (made : Except ε SharedDocument)
  | insert (uri : String) (d : SharedDocument)
  | purge
  | clear

namespace Call

variable {ε : Type}

/-- The cache after a call made while the documents with the handles `live` are held. -/
def apply (live : List Nat) (c : DocumentCache) : Call ε → DocumentCache
  | .get u => (c.lookup live u).2
  | .getOrMaterialize u r => (Id.run (c.getOrMaterialize live u (pure r))).2
  | .insert u d => c.store u d
  | .purge => (c.purge live).2
  | .clear => c.clear

/-- What a call stores: the document inserted, or the one materialized when the lookup finds no
live entry. -/
def stored (live : List Nat) (c : DocumentCache) : Call ε → Option (String × SharedDocument)
  | .insert u d => some (u, d)
  | .getOrMaterialize u (.ok d) => if (c.lookup live u).1 = none then some (u, d) else none
  | _ => none

theorem apply_getOrMaterialize (u : String) (r : Except ε SharedDocument) :
    (Call.getOrMaterialize u r).apply live c =
      if (c.lookup live u).1 = none then (c.erase u).storeOutcome u r else (c.lookup live u).2 := by
  by_cases hmiss : (c.lookup live u).1 = none
  · rw [if_pos hmiss]
    show (Id.run (c.getOrMaterialize live u (pure r))).2 = _
    rw [getOrMaterialize_miss _ (lookup_fst_eq_none_iff.mp hmiss)]
    rfl
  · rw [if_neg hmiss]
    obtain ⟨d, hd⟩ := Option.ne_none_iff_exists'.mp hmiss
    obtain ⟨he, hl⟩ := lookup_fst_eq_some_iff.mp hd
    show (Id.run (c.getOrMaterialize live u (pure r))).2 = _
    rw [getOrMaterialize_hit _ he hl]
    rfl

/-- One call keeps the cache well formed, of the same capacity, and coherent with the stores
made so far and its own. -/
theorem apply_invariant (call : Call ε) (live : List Nat) {log : List (String × SharedDocument)}
    (h : c.WellFormed) (hc : Coherent log c) :
    (call.apply live c).capacity = c.capacity ∧ (call.apply live c).WellFormed ∧
      Coherent ((call.stored live c).toList ++ log) (call.apply live c) := by
  cases call with
  | get u => exact ⟨lookup_capacity, h.lookup, hc.lookup⟩
  | getOrMaterialize u r =>
    rw [apply_getOrMaterialize]
    by_cases hmiss : (c.lookup live u).1 = none
    · rw [if_pos hmiss]
      cases r with
      | ok d =>
        have hs : stored live c (.getOrMaterialize u (.ok d : Except ε SharedDocument)) = some (u, d) :=
          if_pos hmiss
        rw [hs]
        exact ⟨rfl, h.erase.store, hc.erase.store⟩
      | error e => exact ⟨rfl, h.erase, hc.erase⟩
    · rw [if_neg hmiss]
      have hs : stored live c (.getOrMaterialize u r) = none := by
        cases r with
        | ok d => exact if_neg hmiss
        | error e => rfl
      rw [hs]
      exact ⟨lookup_capacity, h.lookup, hc.lookup⟩
  | insert u d => exact ⟨rfl, h.store, hc.store⟩
  | purge =>
    refine ⟨rfl, h.purge, hc.of_subset fun e he => ?_⟩
    have he' : e ∈ (c.purge live).2.entries := he
    rw [purge_entries] at he'
    exact (List.mem_filter.mp he').1
  | clear => exact ⟨rfl, h.clear, hc.of_subset fun e he => by cases he⟩

end Call

/-- Makes calls in turn, each while the documents with the handles given with it are held, after
the stores in `log` (latest first): the cache after them, and all the stores, latest first. -/
def runCalls {ε : Type} : DocumentCache → List (String × SharedDocument) → List (List Nat × Call ε) →
    DocumentCache × List (String × SharedDocument)
  | c, log, [] => (c, log)
  | c, log, (live, call) :: rest => runCalls (call.apply live c) ((call.stored live c).toList ++ log) rest

theorem runCalls_invariant {ε : Type} (calls : List (List Nat × Call ε)) :
    ∀ {c : DocumentCache} {log : List (String × SharedDocument)}, c.WellFormed → Coherent log c →
      (runCalls c log calls).1.capacity = c.capacity ∧ (runCalls c log calls).1.WellFormed ∧
        Coherent (runCalls c log calls).2 (runCalls c log calls).1 := by
  induction calls with
  | nil => intro c log h hc; exact ⟨rfl, h, hc⟩
  | cons step rest ih =>
    intro c log h hc
    obtain ⟨live, call⟩ := step
    obtain ⟨hcap, h', hc'⟩ := call.apply_invariant live h hc
    obtain ⟨hcap'', h'', hc''⟩ := ih h' hc'
    exact ⟨hcap''.trans hcap, h'', hc''⟩

theorem wellFormed_empty {capacity : Nat} (h : 0 < capacity) : (empty capacity).WellFormed :=
  ⟨h, Nat.zero_le _, List.nodup_nil⟩

theorem coherent_empty (capacity : Nat) (log : List (String × SharedDocument)) :
    Coherent log (empty capacity) :=
  fun _ _ he => by cases he

/-- After any calls on a new cache of positive capacity, with documents held and dropped between
them in any way, the cache holds at most `capacity` entries, and the entry under an identifier is
the document most recently stored under it. From there, for the documents then held: a lookup
gives that entry when its document is live, and after it the entry is kept when live and
dropped when dead, every other entry unchanged. Materializing returns a live entry without
running the materializer, and otherwise runs it once and stores its document under the
identifier; when it fails the entries are those before, less the dead entry. The live count is
the number of entries a purge keeps, the purge keeps exactly the live entries, and it gives the
number of the others. -/
theorem calls_serve_latest_live {ε : Type} {capacity : Nat} (hcap : 0 < capacity)
    (calls : List (List Nat × Call ε)) {c : DocumentCache} {log : List (String × SharedDocument)}
    (hrun : runCalls (empty capacity) [] calls = (c, log)) (live : List Nat) (u : String) :
    c.entries.length ≤ capacity ∧
    (∀ d, c.entryOf u = some d → log.lookup u = some d) ∧
    (c.lookup live u).1 = (c.entryOf u).filter (fun d => live.contains d.handle) ∧
    (∀ v, (c.lookup live u).2.entryOf v = if v = u then (c.lookup live u).1 else c.entryOf v) ∧
    (∀ {m : Type → Type} [Monad m] (f : m (Except ε SharedDocument)),
      (∀ d, c.entryOf u = some d → live.contains d.handle = true →
        c.getOrMaterialize live u f = pure (.ok d, (c.lookup live u).2)) ∧
      ((∀ d, c.entryOf u = some d → live.contains d.handle = false) →
        c.getOrMaterialize live u f = f >>= fun r => pure (r, (c.erase u).storeOutcome u r))) ∧
    (∀ d, ((c.erase u).storeOutcome u (.ok d : Except ε SharedDocument)).entryOf u = some d) ∧
    (∀ (e : ε) v, ((c.erase u).storeOutcome u (.error e)).entryOf v = if v = u then none else c.entryOf v) ∧
    c.liveCount live = (c.purge live).2.entries.length ∧
    (c.purge live).1 + c.liveCount live = c.entries.length ∧
    (∀ v, (c.purge live).2.entryOf v = (c.entryOf v).filter (fun d => live.contains d.handle)) := by
  obtain ⟨hcapEq, h, hc⟩ := runCalls_invariant calls (wellFormed_empty hcap) (coherent_empty capacity [])
  rw [hrun] at hcapEq h hc
  refine ⟨h.bounded.trans_eq hcapEq, fun d hd => hc u d (mem_of_entryOf_eq_some hd), lookup_fst,
    fun v => entryOf_lookup, fun f => ⟨fun d hd hl => getOrMaterialize_hit f hd hl,
      fun hdead => getOrMaterialize_miss f hdead⟩, fun d => entryOf_store h.erase.capacity_pos,
    fun e v => entryOf_erase, liveCount_eq_purge, purge_fst_add_liveCount,
    fun v => entryOf_purge h.keys_nodup⟩

/-- Two documents inserted under `a` and `b` in a cache of one entry, then a lookup of `a` with
only the second document held. -/
theorem calls_on_one_entry :
    let calls : List (List Nat × Call Unit) :=
      [([0, 1], .insert "a" ⟨0, default⟩), ([0, 1], .insert "b" ⟨1, default⟩)]
    ∃ c log, runCalls (empty 1) [] calls = (c, log) ∧
      c.entries.length ≤ 1 ∧
      (∀ d, c.entryOf "a" = some d → log.lookup "a" = some d) ∧
      (c.lookup [1] "a").1 = (c.entryOf "a").filter (fun d => [1].contains d.handle) ∧
      (∀ v, (c.lookup [1] "a").2.entryOf v = if v = "a" then (c.lookup [1] "a").1 else c.entryOf v) ∧
      (∀ {m : Type → Type} [Monad m] (f : m (Except Unit SharedDocument)),
        (∀ d, c.entryOf "a" = some d → [1].contains d.handle = true →
          c.getOrMaterialize [1] "a" f = pure (.ok d, (c.lookup [1] "a").2)) ∧
        ((∀ d, c.entryOf "a" = some d → [1].contains d.handle = false) →
          c.getOrMaterialize [1] "a" f = f >>= fun r => pure (r, (c.erase "a").storeOutcome "a" r))) ∧
      (∀ d, ((c.erase "a").storeOutcome "a" (.ok d : Except Unit SharedDocument)).entryOf "a" = some d) ∧
      (∀ (e : Unit) v, ((c.erase "a").storeOutcome "a" (.error e)).entryOf v =
        if v = "a" then none else c.entryOf v) ∧
      c.liveCount [1] = (c.purge [1]).2.entries.length ∧
      (c.purge [1]).1 + c.liveCount [1] = c.entries.length ∧
      (∀ v, (c.purge [1]).2.entryOf v = (c.entryOf v).filter (fun d => [1].contains d.handle)) := by
  intro calls
  exact ⟨(runCalls (empty 1) [] calls).1, (runCalls (empty 1) [] calls).2, rfl,
    calls_serve_latest_live (by decide : 0 < 1) calls rfl [1] "a"⟩

end DocumentCache

end XmlPointer
