import Mathlib
import XmlPointer.Stream.Reader
import XmlPointer.Proofs.NodeStream

/-! # A pointer reader streams the items it selects

A pointer reader on a document resolves its pointer at once, then opens a reader on each
selected item in turn: a node reader on a node, a one-token reader on an attribute value. One
read steps over the end of an item and the opening of the next within the same call, so a read
takes at most two steps for each item left. The reader fails exactly when resolving the pointer
fails, and otherwise reads the tokens of every item back to back in selection order, which
written out are the items' XML one after another; then it stays finished. -/
namespace XmlPointer

open Document

/-- The tokens that stand for a selected item: a node's subtree as its node reader drains it,
and an attribute value as one text token. -/
def Selected.tokens (d : Document) : Selected → List StreamToken
  | .node m => (NodeReader.new d m).drain.1.map (·.token)
  | .attribute v => [.text v]

/-- The reader that a pointer reader opens on an item. -/
def Selected.reader (d : Document) : Selected → MatchReader
  | .node m => .node (NodeReader.new d m)
  | .attribute v => .value (some v)

/-- Reading from an item reader, token by token. -/
abbrev MatchReader.Reads : MatchReader → List StreamToken → MatchReader → Prop :=
  XmlPointer.Reads MatchReader.read fun t _ => t

/-- Reading from a pointer reader, token by token. -/
abbrev PointerReader.Reads : PointerReader → List StreamToken → PointerReader → Prop :=
  XmlPointer.Reads PointerReader.read fun t _ => t

namespace Selected

variable {d : Document}

theorem reads_reader (h : d.Arena) (item : Selected) :
    ∃ m m', MatchReader.Reads (item.reader d) (item.tokens d) m ∧ m.read = (none, m') := by
  rcases item with n | v
  · -- a node reader drains the node's subtree
    obtain ⟨r, r', hreads, hend, -, -⟩ := NodeReader.reads_new h n
    obtain ⟨r'', hdrain, -, -⟩ := NodeReader.drain_new h n
    have hnode := Reads.map MatchReader.read (fun t _ => t) MatchReader.node
      (·.token) (fun r t r₁ hr => by simp [MatchReader.read, hr]) (fun _ _ => rfl) hreads
    exact ⟨.node r, .node r', by simpa [tokens, reader, hdrain] using hnode,
      by simp [MatchReader.read, hend]⟩
  · exact ⟨.value none, .value none, .read rfl (.refl _), rfl⟩

theorem xml_tokens (h : d.Arena) (item : Selected) :
    String.join ((item.tokens d).map StreamToken.xml) = item.xml d := by
  rcases item with n | v
  · obtain ⟨r', hdrain, -, -⟩ := NodeReader.drain_new h n
    simp only [tokens, xml, hdrain, List.map_map]
    exact xml_subtreeTokens h n
  · simp [tokens, xml, StreamToken.xml]

theorem length_tokens_le (h : d.Arena) (item : Selected) :
    (item.tokens d).length ≤ 2 * d.size + 1 := by
  rcases item with n | v
  · obtain ⟨r', hdrain, -, -⟩ := NodeReader.drain_new h n
    have := NodeReader.length_subtreeTokens_le h n
    simp only [tokens, hdrain, List.length_map]
    omega
  · simp [tokens]

end Selected

namespace PointerReader

/-! ## The steps of a read -/

section Steps

variable {settings : ReaderSettings} {ptr : Option Pointer} {sd : SharedDocument}
  {doc : Option SharedDocument} {items : List Selected} {sel : Option NodeSequence}
  {cur : Option MatchReader} {ph : Phase} {st : Bool} {m m₁ : MatchReader} {t : StreamToken}
  {q f : Nat}

theorem readFrom_streaming_token (hm : m.read = (some t, m₁)) :
    readFrom (f + 1) ⟨settings, .streaming, ptr, doc, sel, some m, st⟩ =
      (some t, ⟨settings, .streaming, ptr, doc, sel, some m₁, st⟩) := by
  simp [readFrom, hm]

theorem readFrom_streaming_end (hm : m.read = (none, m₁)) :
    readFrom (f + 1) ⟨settings, .streaming, ptr, doc, sel, some m, st⟩ =
      readFrom f ⟨settings, .advancing, ptr, doc, sel, some m₁, st⟩ := by
  simp [readFrom, hm]

theorem openCurrent_of_lt (hq : q < items.length) :
    openCurrent ⟨settings, ph, ptr, some sd, some ⟨items, q⟩, cur, st⟩ =
      ⟨settings, .streaming, ptr, some sd, some ⟨items, q⟩, some (items[q].reader sd.doc), st⟩ := by
  simp only [openCurrent, Option.bind_some, NodeSequence.current, List.getElem?_eq_getElem hq]
  generalize items[q] = item
  cases item <;> rfl

theorem openCurrent_of_le (hq : items.length ≤ q) :
    openCurrent ⟨settings, ph, ptr, doc, some ⟨items, q⟩, cur, st⟩ =
      ⟨settings, .finished, ptr, doc, some ⟨items, q⟩, none, st⟩ := by
  simp [openCurrent, NodeSequence.current, List.getElem?_eq_none hq]

theorem readFrom_advancing_next (hq : q + 1 < items.length) :
    readFrom (f + 1) ⟨settings, .advancing, ptr, some sd, some ⟨items, q⟩, cur, st⟩ =
      readFrom f ⟨settings, .streaming, ptr, some sd, some ⟨items, q + 1⟩,
        some (items[q + 1].reader sd.doc), st⟩ := by
  have hmove : NodeSequence.moveNext ⟨items, q⟩ = (true, ⟨items, q + 1⟩) := by
    simp [NodeSequence.moveNext, hq, show q < items.length by omega]
  simp only [readFrom, Option.map_some, hmove]
  rw [openCurrent_of_lt hq]

theorem readFrom_advancing_last (hq : q + 1 = items.length) :
    readFrom (f + 1) ⟨settings, .advancing, ptr, doc, some ⟨items, q⟩, cur, st⟩ =
      (none, ⟨settings, .finished, ptr, doc, some ⟨items, q + 1⟩, none, st⟩) := by
  have hmove : NodeSequence.moveNext ⟨items, q⟩ = (false, ⟨items, q + 1⟩) := by
    simp [NodeSequence.moveNext, show q < items.length by omega, hq]
  simp [readFrom, hmove]

theorem readFrom_streaming_succ (k : Nat) : ∀ q m f, q + k + 1 = items.length → 2 * k + 2 ≤ f →
    readFrom (f + 1) ⟨settings, .streaming, ptr, some sd, some ⟨items, q⟩, some m, st⟩ =
      readFrom f ⟨settings, .streaming, ptr, some sd, some ⟨items, q⟩, some m, st⟩ := by
  induction k with
  | zero =>
    intro q m f hq hf
    obtain ⟨f, rfl⟩ : ∃ f', f = f' + 2 := ⟨f - 2, by omega⟩
    rcases hm : m.read with ⟨_ | t, m₁⟩
    · rw [readFrom_streaming_end hm, readFrom_streaming_end hm, readFrom_advancing_last hq,
        readFrom_advancing_last hq]
    · rw [readFrom_streaming_token hm, readFrom_streaming_token hm]
  | succ k ih =>
    intro q m f hq hf
    obtain ⟨f, rfl⟩ : ∃ f', f = f' + 2 := ⟨f - 2, by omega⟩
    rcases hm : m.read with ⟨_ | t, m₁⟩
    · -- the item ends: the next one is opened with two steps less
      rw [readFrom_streaming_end hm, readFrom_streaming_end hm, readFrom_advancing_next (by omega),
        readFrom_advancing_next (by omega)]
      exact ih (q + 1) _ f (by omega) (by omega)
    · rw [readFrom_streaming_token hm, readFrom_streaming_token hm]

theorem readFrom_streaming_fuel (k : Nat) {f' : Nat} (hq : q + k + 1 = items.length) (hf : 2 * k + 2 ≤ f)
    (hff : f ≤ f') :
    readFrom f' ⟨settings, .streaming, ptr, some sd, some ⟨items, q⟩, some m, st⟩ =
      readFrom f ⟨settings, .streaming, ptr, some sd, some ⟨items, q⟩, some m, st⟩ := by
  induction f', hff using Nat.le_induction with
  | base => rfl
  | succ n hn ih => rw [readFrom_streaming_succ k q m n hq (by omega), ih]

/-! ## Reads -/

theorem read_eq_started :
    read ⟨settings, ph, ptr, doc, sel, cur, st⟩ = read ⟨settings, ph, ptr, doc, sel, cur, true⟩ := by
  simp [read, readFuel]

theorem read_streaming_token (hm : m.read = (some t, m₁)) :
    read ⟨settings, .streaming, ptr, doc, sel, some m, true⟩ =
      (some t, ⟨settings, .streaming, ptr, doc, sel, some m₁, true⟩) := by
  simp only [read, readFuel]
  exact readFrom_streaming_token hm

theorem read_streaming_next (hm : m.read = (none, m₁)) (hq : q + 1 < items.length) :
    read ⟨settings, .streaming, ptr, some sd, some ⟨items, q⟩, some m, true⟩ =
      read ⟨settings, .streaming, ptr, some sd, some ⟨items, q + 1⟩,
        some (items[q + 1].reader sd.doc), true⟩ := by
  simp only [read, readFuel, Option.map_some, Option.getD_some]
  rw [readFrom_streaming_end hm, readFrom_advancing_next hq]
  exact (readFrom_streaming_fuel (items.length - (q + 2)) (by omega) (by omega) (by omega)).symm

theorem read_streaming_last (hm : m.read = (none, m₁)) (hq : q + 1 = items.length) :
    read ⟨settings, .streaming, ptr, doc, some ⟨items, q⟩, some m, true⟩ =
      (none, ⟨settings, .finished, ptr, doc, some ⟨items, q + 1⟩, none, true⟩) := by
  simp only [read, readFuel, Option.map_some, Option.getD_some]
  rw [readFrom_streaming_end hm, readFrom_advancing_last hq]

theorem read_finished :
    read ⟨settings, .finished, ptr, doc, sel, cur, true⟩ =
      (none, ⟨settings, .finished, ptr, doc, sel, cur, true⟩) := by
  simp [read, readFuel, readFrom]

end Steps

theorem readMany_of_reads {r r' r'' : PointerReader} {ts : List StreamToken} (h : Reads r ts r')
    (hend : r'.read = (none, r'')) : ∀ n, ts.length < n → r.readMany n = (ts, r'') :=
  XmlPointer.Reads.loop_eq readMany (fun _ _ _ _ hr => by simp [readMany, hr])
    (fun _ _ _ hr => by simp [readMany, hr]) h hend

/-! ## A whole run -/

section Run

variable (settings : ReaderSettings) (ptr : Option Pointer) {sd : SharedDocument}
  (items : List Selected)

theorem reads_item {doc : Option SharedDocument} {sel : Option NodeSequence} {m m' : MatchReader}
    {ts : List StreamToken} (h : MatchReader.Reads m ts m') :
    Reads ⟨settings, .streaming, ptr, doc, sel, some m, true⟩ ts
      ⟨settings, .streaming, ptr, doc, sel, some m', true⟩ := by
  simpa using Reads.map read (fun t _ => t)
    (fun m => (⟨settings, .streaming, ptr, doc, sel, some m, true⟩ : PointerReader)) id
    (fun _ _ _ hr => read_streaming_token hr) (fun _ _ => rfl) h

theorem reads_from_item
    (hitems : ∀ i (hi : i < items.length), ∃ m m', MatchReader.Reads (items[i].reader sd.doc)
      (items[i].tokens sd.doc) m ∧ m.read = (none, m')) (k : Nat) :
    ∀ q m ts m' m'', q + k + 1 = items.length → MatchReader.Reads m ts m' →
      m'.read = (none, m'') →
      ∃ r, Reads ⟨settings, .streaming, ptr, some sd, some ⟨items, q⟩, some m, true⟩
          (ts ++ (items.drop (q + 1)).flatMap (Selected.tokens sd.doc)) r ∧
        r.read = (none, ⟨settings, .finished, ptr, some sd, some ⟨items, items.length⟩, none, true⟩) := by
  induction k with
  | zero =>
    intro q m ts m' m'' hq hm hend
    have hdrop : items.drop (q + 1) = [] := List.drop_of_length_le (by omega)
    refine ⟨_, by simpa [hdrop] using reads_item settings ptr hm, ?_⟩
    rw [read_streaming_last hend hq, hq]
  | succ k ih =>
    intro q m ts m' m'' hq hm hend
    have hq' : q + 1 < items.length := by omega
    -- the next item's reader takes over in the read that ends this one
    obtain ⟨n, n', hn, hnend⟩ := hitems (q + 1) hq'
    obtain ⟨r, hrest, hlast⟩ := ih (q + 1) _ _ _ _ (by omega) hn hnend
    obtain ⟨r₁, hrest', hlast'⟩ := Reads.of_next_eq (read_streaming_next hend hq') hrest hlast
    refine ⟨r₁, ?_, hlast'⟩
    rw [List.drop_eq_getElem_cons hq', List.flatMap_cons]
    exact (reads_item settings ptr hm).trans hrest'

end Run

/-! ## Starting on a document -/

section Start

variable (settings : ReaderSettings) {sd : SharedDocument} {text : String} (live : List Nat)
  (s : Store) {items : List Selected}

theorem start_document_error {e : PointerError} (hres : resolvePointer sd.doc text = .error e) :
    start settings (.document sd) text live s = (.error (.pointer e), s) := by
  cases hp : Pointer.parse text with
  | error e' =>
    have he : e' = e := by simpa [resolvePointer, hp, bind, Except.bind] using hres
    simp [start, restart, resolve, hp, he]
  | ok p =>
    have he : p.evaluate sd.doc 0 = .error e := by
      simpa [resolvePointer, hp, bind, Except.bind] using hres
    simp [start, restart, resolve, hp, Source.materialize, he]

theorem start_document_ok (hres : resolvePointer sd.doc text = .ok items) :
    ∃ p, start settings (.document sd) text live s =
      (.ok (openCurrent ⟨settings, .resolving, some p, some sd, some ⟨items, 0⟩, none, false⟩), s) := by
  cases hp : Pointer.parse text with
  | error e => simp [resolvePointer, hp, bind, Except.bind] at hres
  | ok p =>
    have hitems : p.evaluate sd.doc 0 = .ok items := by
      simpa [resolvePointer, hp, bind, Except.bind] using hres
    exact ⟨p, by simp [start, restart, resolve, hp, Source.materialize, hitems]⟩

theorem start_document_reads (h : sd.doc.Arena) (hres : resolvePointer sd.doc text = .ok items) :
    ∃ r r₁ r₂, start settings (.document sd) text live s = (.ok r, s) ∧ r.doc? = some sd.doc ∧
      r.matchCount = items.length ∧ Reads r (items.flatMap (Selected.tokens sd.doc)) r₁ ∧
      r₁.read = (none, r₂) ∧ r₂.isEof = true ∧ r₂.read = (none, r₂) := by
  obtain ⟨p, hstart⟩ := start_document_ok settings live s hres
  cases items with
  | nil =>
    -- nothing selected: the reader opens finished
    rw [openCurrent_of_le (by simp)] at hstart
    refine ⟨_, _, _, hstart, rfl, rfl, .refl _, by rw [read_eq_started, read_finished],
      by simp [isEof, readState], read_finished⟩
  | cons a rest =>
    rw [openCurrent_of_lt (by simp)] at hstart
    obtain ⟨m, m', ha, haend⟩ := Selected.reads_reader h a
    obtain ⟨r, hreads, hend⟩ := reads_from_item settings (some p) (a :: rest)
      (fun i hi => Selected.reads_reader h _) rest.length 0 _ _ _ _ (by simp) ha haend
    -- the first read only marks the reader started
    obtain ⟨r₁, hreads', hend'⟩ := Reads.of_next_eq read_eq_started hreads hend
    simp only [zero_add, List.drop_succ_cons, List.drop_zero] at hreads'
    refine ⟨_, r₁, _, hstart, rfl, rfl, ?_, hend', by simp [isEof, readState], read_finished⟩
    rw [List.flatMap_cons]
    exact hreads'

theorem length_flatMap_tokens_le {d : Document} (h : d.Arena) :
    ∀ items : List Selected,
      (items.flatMap (Selected.tokens d)).length ≤ items.length * (2 * d.size + 1)
  | [] => by simp
  | a :: rest => by
    have ha := Selected.length_tokens_le h a
    have hrest := length_flatMap_tokens_le h rest
    rw [List.flatMap_cons, List.length_append, List.length_cons, Nat.succ_mul]
    omega

theorem join_xml_flatMap_tokens {d : Document} (h : d.Arena) (items : List Selected) :
    String.join ((items.flatMap (Selected.tokens d)).map StreamToken.xml) =
      String.join (items.map (Selected.xml d)) := by
  rw [List.map_flatMap, join_flatMap]
  congr 1
  exact List.map_congr_left fun item _ => Selected.xml_tokens h item

end Start

end PointerReader

/-- A pointer reader started on a built document behaves as resolving the pointer and writing
each item as XML, for every pointer of a list, in its place: starting changes no store; it fails
with a pointer error exactly when resolving the pointer fails with that error; and otherwise the
reader counts one match for each written item, reads until none the tokens of each selected item
back to back in selection order (a node's subtree as its node reader drains it, an attribute value
as one text token), which written out are the items' XML one after another, as writing out the
rest of the reader gives, and ends finished, where reading gives none and changes nothing. -/
theorem PointerReader.start_document_streams_resolution {input : List UInt8} {strict : Bool}
    {sd : SharedDocument} (hd : Document.parse input strict = .ok sd.doc)
    (settings : ReaderSettings) (texts : List String) (i : Nat) (hi : i < texts.length)
    (live : List Nat) (s : Store) :
    (PointerReader.start settings (.document sd) texts[i] live s).2 = s ∧
      (∀ e, (PointerReader.start settings (.document sd) texts[i] live s).1 = .error (.pointer e) ↔
        (resolveToXml sd.doc texts)[i]? = some (.error e)) ∧
      ∀ xs, (resolveToXml sd.doc texts)[i]? = some (.ok xs) →
        ∃ r items r', (PointerReader.start settings (.document sd) texts[i] live s).1 = .ok r ∧
          resolvePointer sd.doc texts[i] = .ok items ∧ r.matchCount = xs.length ∧
          (∀ n, r.drainFuel ≤ n → r.readMany n = (items.flatMap (Selected.tokens sd.doc), r')) ∧
          String.join ((items.flatMap (Selected.tokens sd.doc)).map StreamToken.xml) =
            String.join xs ∧
          r.writeRemaining = (String.join xs, r') ∧ r'.isEof = true ∧ r'.read = (none, r') := by
  have h := Document.parse_arena hd
  have hget : (resolveToXml sd.doc texts)[i]? =
      some ((resolvePointer sd.doc texts[i]).map fun items => items.map (Selected.xml sd.doc)) := by
    simp [resolveToXml, hi]
  cases hres : resolvePointer sd.doc texts[i] with
  | error e =>
    rw [hget, hres, PointerReader.start_document_error settings live s hres]
    simp [Except.map]
  | ok items =>
    obtain ⟨r, r₁, r₂, hstart, hdoc, hcount, hreads, hend, heof, hfin⟩ :=
      PointerReader.start_document_reads settings live s h hres
    refine ⟨by rw [hstart], fun e => by simp [hstart, hget, hres, Except.map], fun xs hxs => ?_⟩
    have hxs' : items.map (Selected.xml sd.doc) = xs := by simpa [hget, hres, Except.map] using hxs
    subst hxs'
    -- the drain's bound: every item's tokens fit, with room to read the final none
    have hlen := PointerReader.length_flatMap_tokens_le h items
    have hmany : ∀ n, r.drainFuel ≤ n →
        r.readMany n = (items.flatMap (Selected.tokens sd.doc), r₂) := by
      intro n hn
      refine PointerReader.readMany_of_reads hreads hend n ?_
      have hbound : items.length * (2 * sd.doc.size + 1) <
          2 * (sd.doc.size + 1) * (items.length + 1) + 2 := by
        nlinarith
      simp only [PointerReader.drainFuel, hdoc, hcount, Option.map_some, Option.getD_some] at hn
      omega
    refine ⟨r, items, r₂, by rw [hstart], rfl, by simp [hcount], hmany,
      PointerReader.join_xml_flatMap_tokens h items, ?_, heof, hfin⟩
    simp [PointerReader.writeRemaining, hmany _ le_rfl,
      PointerReader.join_xml_flatMap_tokens h items]

/-- On `<a><b/>t</a>`, the reader of `element(/1)` writes out what resolving the pointer
writes. -/
theorem PointerReader.start_element_pointer_streams :
    ∃ d, Document.parse "<a><b/>t</a>".toUTF8.toList true = .ok d ∧
      ∀ xs, (resolveToXml d ["element(/1)"])[0]? = some (.ok xs) →
        ∃ r, (PointerReader.start {} (.document ⟨0, d⟩) "element(/1)" [] (Store.init {} 1)).1 =
          .ok r ∧ r.writeRemaining.1 = String.join xs := by
  have hok : (Document.parse "<a><b/>t</a>".toUTF8.toList true).isOk = true := by
    decide +kernel
  cases h : Document.parse "<a><b/>t</a>".toUTF8.toList true with
  | ok d =>
    refine ⟨d, rfl, fun xs hxs => ?_⟩
    have hd : Document.parse "<a><b/>t</a>".toUTF8.toList true = .ok (⟨0, d⟩ : SharedDocument).doc := h
    obtain ⟨r, items, r', hstart, -, -, -, -, hwrite, -, -⟩ :=
      (PointerReader.start_document_streams_resolution hd {} ["element(/1)"] 0 (by decide) []
        (Store.init {} 1)).2.2 xs hxs
    exact ⟨r, hstart, by rw [hwrite]⟩
  | error e => rw [h] at hok; cases hok

end XmlPointer
