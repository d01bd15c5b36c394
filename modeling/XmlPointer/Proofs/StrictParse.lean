import Mathlib
import XmlPointer.Proofs.Namespaces

/-! # What a strict build refuses

A strict build checks each event against the start tags open before it and whether the root
has started: end tags close the innermost open element by name, there is one top-level element,
character data outside it is blank, CDATA and a late DOCTYPE are refused there, and every
prefix that a tag uses is bound by the declarations of the open tags and its own, the last
declaration of a prefix counting and an empty URI unbinding it. `strictViolation` gives the
first fault in the order the checks meet them: invalid UTF-8 first, then the events in order,
then a lexical fault, an element left open, and no element at all. A tag whose attribute region
is faulty gives no event, so its lexical fault is reported before anything else wrong with the
tag. Strict parsing fails with exactly that fault, and succeeds exactly when there is none. -/

namespace XmlPointer

open Builder

namespace Markup.StartTag

/-- The bindings a start tag declares, in order: the prefix each declaration binds (the default
namespace for `xmlns`) and its URI. -/
def bindings (t : StartTag) : List (String × String) :=
  (t.attributes.filter (·.isDeclaration)).map fun a =>
    (if a.prefixPart.isSome then text a.localPart else "", text a.value)

def prefixName (t : StartTag) : String :=
  ((splitName t.name).1.map text).getD ""

/-- The non-empty prefixes of a start tag's attributes that are not declarations, in order. -/
def attributePrefixes (t : StartTag) : List String :=
  t.attributes.filterMap fun a =>
    let pre := (a.prefixPart.map text).getD ""
    if a.isDeclaration || pre.isEmpty then none else some pre

end Markup.StartTag

def BindsPrefix (decls : List (String × String)) (p : String) : Bool :=
  p.isEmpty || p == "xml" || p == "xmlns" || (Scopes.lastBinding decls p).any (!·.isEmpty)

def openDeclarations (tags : List Markup.StartTag) : List (String × String) :=
  tags.reverse.flatMap (·.bindings)

/-- The fault of a start or empty-element tag, given the tags open before it: a second
top-level element, or else the first of its prefixes, the element's and then its attributes',
that is not bound. -/
def tagFault (tags : List Markup.StartTag) (rooted : Bool) (offset : Nat) (t : Markup.StartTag) :
    Option DocumentError :=
  if tags.isEmpty && rooted then some (.malformed .multipleRoots offset)
  else ((t.prefixName :: t.attributePrefixes).find?
      fun p => !BindsPrefix (openDeclarations tags ++ t.bindings) p).map
    fun p => .malformed (.unboundPrefix p) offset

/-- The fault of an event, given the start tags open before it (innermost first) and whether
the root has started; none when the event is allowed there. -/
def eventFault (tags : List Markup.StartTag) (rooted : Bool) (offset : Nat) :
    Markup.Event → Option DocumentError
  | .start t | .empty t => tagFault tags rooted offset t
  | .finish n =>
    match tags with
    | [] => some (.malformed (.unexpectedEndTag (text n)) offset)
    | t :: _ =>
      if text t.name = text n then none
      else some (.malformed (.mismatchedEndTag (text n) (text t.name)) offset)
  | .text c =>
    if tags.isEmpty && !allBlank c then some (.malformed .textOutsideRoot offset) else none
  | .cdata _ => if tags.isEmpty then some (.malformed .cdataOutsideRoot offset) else none
  | .doctype _ => if rooted then some (.malformed .doctypeAfterRoot offset) else none
  | .comment _ | .instruction _ _ | .declaration | .endDocument => none

/-- The start tags open after an event, innermost first. -/
def Markup.Event.nextOpen (tags : List Markup.StartTag) : Markup.Event → List Markup.StartTag
  | .start t => t :: tags
  | .finish _ => tags.tail
  | _ => tags

/-- The first fault of events, from open tags and a root flag on. -/
def firstFault : List Markup.StartTag → Bool → List (Nat × Markup.Event) → Option DocumentError
  | _, _, [] => none
  | tags, rooted, (offset, ev) :: rest =>
    (eventFault tags rooted offset ev).or
      (firstFault (ev.nextOpen tags) (rooted || ev.tag?.isSome) rest)

def openAfter (evs : List (Nat × Markup.Event)) : List Markup.StartTag :=
  evs.foldl (fun tags x => x.2.nextOpen tags) []

/-- The first thing wrong with an input for a strict build, in the order the checks meet it;
none when it is a well-formed document. -/
def strictViolation (input : List UInt8) : Option DocumentError :=
  match Text.Utf8.firstInvalid input with
  | some p => some (.invalidUtf8 p)
  | none =>
    let evs := Markup.events true input
    (firstFault [] false evs.1).or <|
      (evs.2.map fun e => .malformed (.lexical e.fault) e.position).or <|
      ((openAfter evs.1).getLast?.map fun t => .malformed (.unclosed (text t.name)) input.length).or <|
      if evs.1.any (·.2.tag?.isSome) then none else some .noRootElement

/-! ## The scopes of open tags -/

def openScopes (tags : List Markup.StartTag) : Scopes :=
  tags.foldr (fun t s => s.enter t.bindings) Scopes.initial

theorem depth_openScopes (tags : List Markup.StartTag) :
    (openScopes tags).depth = UInt16.ofNat tags.length := by
  induction tags with
  | nil => rfl
  | cons t tags ih =>
    rw [openScopes, List.foldr_cons, ← openScopes, Scopes.depth_enter, ih, List.length_cons,
      UInt16.ofNat_add]
    rfl

theorem toNat_depth_openScopes {tags : List Markup.StartTag} (hlen : tags.length < 65536) :
    (openScopes tags).depth.toNat = tags.length := by
  rw [depth_openScopes, UInt16.toNat_ofNat_of_lt' (by simp [UInt16.size]; omega)]

theorem bounded_openScopes (tags : List Markup.StartTag) (hlen : tags.length < 65536) :
    (openScopes tags).Bounded := by
  induction tags with
  | nil => exact Scopes.bounded_initial
  | cons t tags ih =>
    simp only [List.length_cons] at hlen
    refine (ih (by omega)).enter ?_ _
    rw [toNat_depth_openScopes (by omega)]
    omega

theorem pop_enter_openScopes {tags : List Markup.StartTag} (hlen : tags.length < 65535)
    (ds : List (String × String)) : ((openScopes tags).enter ds).pop = openScopes tags :=
  Scopes.pop_enter (bounded_openScopes tags (by omega)) (by rw [toNat_depth_openScopes (by omega)]; exact hlen) ds

theorem lookup_openScopes (tags : List Markup.StartTag) (p : String) :
    (openScopes tags).lookup p =
      (Scopes.lastBinding (openDeclarations tags) p).or (Scopes.initial.lookup p) := by
  induction tags with
  | nil => simp [openScopes, openDeclarations]
  | cons t tags ih =>
    rw [openScopes, List.foldr_cons, Scopes.lookup_enter, ← openScopes, ih]
    simp [openDeclarations, Scopes.lastBinding_append, Option.or_assoc]

theorem openDeclarations_cons (t : Markup.StartTag) (tags : List Markup.StartTag) :
    openDeclarations (t :: tags) = openDeclarations tags ++ t.bindings := by
  simp [openDeclarations]

theorem resolve_openScopes (tags : List Markup.StartTag) (p : String) :
    ((openScopes tags).resolve p).isSome = BindsPrefix (openDeclarations tags) p := by
  rw [Scopes.resolve_eq, lookup_openScopes]
  by_cases he : p.isEmpty = true
  · simp [he, BindsPrefix]
  by_cases hx : p = "xml" ∨ p = "xmlns"
  · -- `xml` and `xmlns` keep the bindings they start with
    rcases hx with rfl | rfl <;>
      simp [Scopes.lastBinding, BindsPrefix, Scopes.lookup, Scopes.initial, xmlNamespace,
        xmlnsNamespace]
  · push Not at hx
    have hl : Scopes.initial.lookup p = none := by
      simp [Scopes.lookup, Scopes.initial, beq_eq_false_iff_ne.mpr (Ne.symm hx.1),
        beq_eq_false_iff_ne.mpr (Ne.symm hx.2)]
    simp only [Bool.not_eq_true] at he
    simp [he, hl, BindsPrefix, hx, Option.isSome_filter]

/-! ## The checks of a build -/

/-- The error of a result that failed. -/
def failureOf {ε α : Type} : Except ε α → Option ε
  | .error e => some e
  | .ok _ => none

namespace Builder

variable {b b' : Builder} {tags : List Markup.StartTag} {rooted : Bool}

theorem resolve_eq_error (hs : b.strict = true) {scopes : Scopes} {pre : String} {offset : Nat}
    {e : DocumentError} :
    b.resolve scopes pre offset = .error e ↔
      scopes.resolve pre = none ∧ e = .malformed (.unboundPrefix pre) offset := by
  unfold Builder.resolve
  split
  · rename_i uri huri
    simp [huri]
  · rename_i hnone
    simp [hs, hnone, eq_comm]

/-- Storing attributes fails at the first attribute prefix, of those a strict build checks,
that does not resolve. -/
theorem storeAttributes_failure (hs : b.strict = true) {scopes : Scopes} {element : String}
    {owner offset : Nat} : ∀ (attrs : List Markup.Attribute) (ids : List (String × Nat)),
      failureOf (b.storeAttributes scopes element owner offset attrs ids) =
        ((Markup.StartTag.mk [] attrs).attributePrefixes.find?
          fun p => (scopes.resolve p).isNone).map fun p => .malformed (.unboundPrefix p) offset := by
  intro attrs
  induction attrs with
  | nil => simp [storeAttributes, Markup.StartTag.attributePrefixes, failureOf]
  | cons a rest ih =>
    intro ids
    simp only [Markup.StartTag.attributePrefixes] at ih ⊢
    simp only [storeAttributes, List.filterMap_cons]
    -- once this attribute passes its check, the failure is that of the rest
    have hrest : ∀ ids' (x : Except DocumentError (List Attr × List (String × Nat))),
        b.storeAttributes scopes element owner offset rest ids' = x → failureOf x =
          ((rest.filterMap fun x =>
            if (x.isDeclaration || ((x.prefixPart.map text).getD "").isEmpty) = true then none
            else some ((x.prefixPart.map text).getD "")).find?
              fun p => (scopes.resolve p).isNone).map fun p => .malformed (.unboundPrefix p) offset := by
      intro ids' x hx
      rw [← hx, ih]
    by_cases hc : (a.isDeclaration || ((a.prefixPart.map text).getD "").isEmpty) = true
    · -- a declaration or an unprefixed name: nothing to resolve
      simp only [hc, if_true]
      split
      · rename_i e' he'
        exact hrest _ _ he'
      · rename_i r hr
        rw [← hrest _ _ hr]
        rfl
    · simp only [Bool.not_eq_true] at hc
      simp only [hc, if_false, Bool.false_eq_true]
      cases hres : scopes.resolve ((a.prefixPart.map text).getD "") with
      | none =>
        have herr : b.resolve scopes ((a.prefixPart.map text).getD "") offset =
            .error (.malformed (.unboundPrefix ((a.prefixPart.map text).getD "")) offset) :=
          (resolve_eq_error hs).mpr ⟨hres, rfl⟩
        simp [herr, hres, failureOf]
      | some u =>
        have hok : b.resolve scopes ((a.prefixPart.map text).getD "") offset = .ok u := by
          simp [Builder.resolve, hres]
        simp only [hok, List.find?_cons, hres, Option.isNone_some]
        split
        · rename_i e' he'
          exact hrest _ _ he'
        · rename_i r hr
          rw [← hrest _ _ hr]
          rfl

theorem nameOf_append (h : Inv b) (n : Node) (x : Nat) :
    (b.append n).nameOf x = if x = b.nodes.size then n.name else b.nameOf x := by
  change (((b.append n).arena.node? x).map (·.name)).getD "" =
    if x = b.nodes.size then n.name else ((b.arena.node? x).map (·.name)).getD ""
  rw [node?_append n h.parent_lt_size h.lastChild_lt x]
  by_cases hx : x = b.nodes.size
  · rw [if_pos hx, if_pos hx]
    rfl
  · rw [if_neg hx, if_neg hx]
    cases b.arena.node? x <;> rfl

theorem map_nameOf_append (h : Inv b) (n : Node) :
    b.stack.map (b.append n).nameOf = b.stack.map b.nameOf := by
  refine List.map_congr_left fun x hx => ?_
  have hlt : x < b.nodes.size := OpenPath.lt_size h.path x hx
  rw [nameOf_append h, if_neg (Nat.ne_of_lt hlt)]

theorem Inv.parent_eq_zero_iff (h : Inv b) : b.parent = 0 ↔ b.stack = [] := by
  cases hs : b.stack with
  | nil => simp [parent, hs]
  | cons s rest =>
    simp only [parent, hs, List.head?_cons, Option.getD_some, reduceCtorEq, iff_false]
    rintro rfl
    have hpath := h.path
    rw [hs] at hpath
    obtain ⟨hk, -⟩ := hpath
    obtain ⟨n, hn, hkind, -⟩ := h.arena.document_node
    simp [Document.kind?, hn, hkind] at hk

/-- What the strict checks see of a build: the names of its open elements are those of the
open tags, its scopes are those the open tags' declarations make, and its root has started as
the tags say. -/
structure Outlines (b : Builder) (tags : List Markup.StartTag) (rooted : Bool) : Prop where
  strict : b.strict = true
  names : b.stack.map b.nameOf = tags.map fun t => text t.name
  scopes : b.scopes = openScopes tags
  root : b.root.isSome = rooted
  opened : tags ≠ [] → rooted = true

theorem Outlines.start : Outlines (start true) [] false :=
  ⟨rfl, rfl, rfl, rfl, fun h => absurd rfl h⟩

theorem Outlines.stack_eq_nil_iff (ho : Outlines b tags rooted) : b.stack = [] ↔ tags = [] := by
  have hlen := congrArg List.length ho.names
  simp only [List.length_map] at hlen
  rw [← List.length_eq_zero_iff, hlen, List.length_eq_zero_iff]

theorem Outlines.addLeaf (ho : Outlines b tags rooted) (h : Inv b) (kind : NodeKind)
    (name value : String) (offset : Nat) :
    Outlines (b.addLeaf kind name value offset) tags rooted :=
  ⟨ho.strict, by rw [Builder.addLeaf, append_stack, map_nameOf_append h, ho.names], ho.scopes,
    ho.root, ho.opened⟩

theorem resolve_enter_isNone (tags : List Markup.StartTag) (t : Markup.StartTag) (p : String) :
    (((openScopes tags).enter t.bindings).resolve p).isNone =
      !BindsPrefix (openDeclarations tags ++ t.bindings) p := by
  have h := resolve_openScopes (t :: tags) p
  rw [openDeclarations_cons] at h
  rw [← h]
  show ((openScopes (t :: tags)).resolve p).isNone = !((openScopes (t :: tags)).resolve p).isSome
  cases (openScopes (t :: tags)).resolve p <;> rfl

/-- Opening an element fails exactly with the fault of its tag. -/
theorem openElement_failure (h : Inv b) (ho : Outlines b tags rooted) (t : Markup.StartTag)
    (offset : Nat) (empty : Bool) :
    failureOf (b.openElement t offset empty) = tagFault tags rooted offset t := by
  have hcond : (decide (b.parent = 0) && b.root.isSome && b.strict) = (tags.isEmpty && rooted) := by
    have hempty : decide (b.parent = 0) = tags.isEmpty := by
      rw [Bool.eq_iff_iff, decide_eq_true_iff, List.isEmpty_iff]
      exact h.parent_eq_zero_iff.trans ho.stack_eq_nil_iff
    rw [ho.strict, ho.root, Bool.and_true, hempty]
  unfold openElement tagFault
  rw [hcond, declareAll_eq, ho.scopes]
  by_cases hm : (tags.isEmpty && rooted) = true
  · simp [hm, failureOf]
  · simp only [hm, if_false, Bool.false_eq_true]
    have hcheck : (fun p => (((openScopes tags).enter t.bindings).resolve p).isNone) =
        fun p => !BindsPrefix (openDeclarations tags ++ t.bindings) p :=
      funext (resolve_enter_isNone tags t)
    split
    · -- the element's prefix is not bound
      rename_i e he
      change b.resolve ((openScopes tags).enter t.bindings) t.prefixName offset = .error e at he
      obtain ⟨hres, rfl⟩ := (resolve_eq_error ho.strict).mp he
      have hb : (!BindsPrefix (openDeclarations tags ++ t.bindings) t.prefixName) = true := by
        rw [← resolve_enter_isNone]
        exact Option.isNone_iff_eq_none.mpr hres
      simp [failureOf, hb]
    · -- it is, and the attributes' prefixes decide
      rename_i ns hns
      change b.resolve ((openScopes tags).enter t.bindings) t.prefixName offset = .ok ns at hns
      have hb : (!BindsPrefix (openDeclarations tags ++ t.bindings) t.prefixName) = false := by
        rw [← resolve_enter_isNone]
        cases hres : ((openScopes tags).enter t.bindings).resolve t.prefixName with
        | none => simp [Builder.resolve, hres, ho.strict] at hns
        | some u => rfl
      have hattrs : failureOf (b.storeAttributes ((openScopes tags).enter t.bindings) (text t.name)
          b.nodes.size offset t.attributes b.ids) = _ :=
        storeAttributes_failure ho.strict t.attributes b.ids
      rw [hcheck] at hattrs
      rw [List.find?_cons, hb]
      split
      · rename_i e he
        change b.storeAttributes ((openScopes tags).enter t.bindings) (text t.name) b.nodes.size
          offset t.attributes b.ids = .error e at he
        rw [he] at hattrs
        exact hattrs
      · rename_i attrs ids hr
        change b.storeAttributes ((openScopes tags).enter t.bindings) (text t.name) b.nodes.size
          offset t.attributes b.ids = .ok (attrs, ids) at hr
        rw [hr] at hattrs
        exact hattrs

/-- An element opened by a tag: the tag stays open unless it was empty, and the root has
started. -/
theorem Outlines.openElement (h : Inv b) (ho : Outlines b tags rooted)
    (hlen : tags.length < 65535) {t : Markup.StartTag} {offset : Nat} {empty : Bool}
    (hok : b.openElement t offset empty = .ok b') :
    Outlines b' (if empty then tags else t :: tags) true := by
  obtain ⟨ns, attrs, ids, -, -, rfl⟩ := openElement_eq_ok_elim hok
  have hscopes : declareAll b.scopes t.attributes = (openScopes tags).enter t.bindings := by
    rw [declareAll_eq, ho.scopes]
    rfl
  have hroot : (if (decide (b.parent = 0) && b.root.isNone) = true then some b.nodes.size
      else b.root).isSome = true := by
    cases hr : b.root with
    | some r => split <;> rfl
    | none =>
      -- with no root yet, no element is open
      have hrooted : rooted = false := by rw [← ho.root, hr]; rfl
      have htags : tags = [] := by
        by_contra hne
        exact Bool.false_ne_true (hrooted ▸ ho.opened hne)
      have hparent : b.parent = 0 := h.parent_eq_zero_iff.mpr (ho.stack_eq_nil_iff.mpr htags)
      simp [hparent]
  cases empty with
  | true =>
    refine ⟨ho.strict, ?_, ?_, hroot, fun _ => rfl⟩
    · exact (map_nameOf_append h _).trans ho.names
    · simp only [if_true, hscopes]
      exact pop_enter_openScopes hlen _
  | false =>
    refine ⟨ho.strict, ?_, by simp [hscopes, openScopes], hroot, fun _ => rfl⟩
    show List.map (b.append _).nameOf (b.nodes.size :: b.stack) = (t :: tags).map fun t => text t.name
    rw [List.map_cons, List.map_cons, map_nameOf_append h, ho.names, nameOf_append h, if_pos rfl]
    rfl

theorem Outlines.top (ho : Outlines b tags rooted)
    {top : Nat} {rest : List Nat} (hs : b.stack = top :: rest) :
    ∃ t tags', tags = t :: tags' ∧ b.nameOf top = text t.name ∧
      rest.map b.nameOf = tags'.map fun t => text t.name := by
  have hnames := ho.names
  rw [hs] at hnames
  cases tags with
  | nil => simp at hnames
  | cons t tags' =>
    obtain ⟨hhead, htail⟩ := List.cons.inj hnames
    exact ⟨t, tags', rfl, hhead, htail⟩

theorem closeElement_failure (ho : Outlines b tags rooted) (n : List UInt8) (offset : Nat) :
    failureOf (b.closeElement n offset) = eventFault tags rooted offset (.finish n) := by
  unfold closeElement
  dsimp only
  split
  · rename_i top rest hs
    obtain ⟨t, tags', rfl, htop, -⟩ := ho.top hs
    by_cases heq : text t.name = text n
    · simp [eventFault, htop, heq, failureOf]
    · simp [eventFault, htop, heq, ho.strict, failureOf]
  · rename_i hs
    rw [ho.stack_eq_nil_iff.mp hs]
    simp [eventFault, ho.strict, failureOf]

theorem Outlines.closeElement (ho : Outlines b tags rooted) (hlen : tags.length < 65535)
    {n : List UInt8} {offset : Nat}
    (hok : b.closeElement n offset = .ok b') : Outlines b' tags.tail rooted := by
  unfold Builder.closeElement at hok
  dsimp only at hok
  split at hok
  · rename_i top rest hs
    obtain ⟨t, tags', rfl, -, hrest⟩ := ho.top hs
    split at hok
    · cases hok
      unfold popElement
      rw [hs]
      refine ⟨ho.strict, hrest, ?_, ho.root, fun _ => ho.opened (List.cons_ne_nil _ _)⟩
      rw [ho.scopes]
      exact pop_enter_openScopes (by simp at hlen; omega) _
    · rw [if_pos ho.strict] at hok
      cases hok
  · rw [if_pos ho.strict] at hok
    cases hok

theorem step_failure (h : Inv b) (ho : Outlines b tags rooted) (offset : Nat) (ev : Markup.Event) :
    failureOf (b.step offset ev) = eventFault tags rooted offset ev := by
  have hempty : b.stack.isEmpty = tags.isEmpty := by
    rw [Bool.eq_iff_iff, List.isEmpty_iff, List.isEmpty_iff]
    exact ho.stack_eq_nil_iff
  cases ev with
  | start t | empty t => exact openElement_failure h ho t offset _
  | finish n => exact closeElement_failure ho n offset
  | text c =>
    simp only [step, eventFault, hempty, ho.strict, Bool.true_and]
    cases tags.isEmpty <;> cases allBlank c <;> rfl
  | cdata c =>
    simp only [step, eventFault, hempty, ho.strict]
    cases tags.isEmpty <;> rfl
  | doctype c =>
    simp only [step, eventFault, ← ho.root, ho.strict, Bool.and_true]
    cases b.root.isSome <;> rfl
  | comment _ | instruction _ _ | declaration | endDocument => rfl

theorem Outlines.step (h : Inv b) (ho : Outlines b tags rooted) (hlen : tags.length < 65535)
    {offset : Nat} {ev : Markup.Event} (hok : b.step offset ev = .ok b') :
    Outlines b' (ev.nextOpen tags) (rooted || ev.tag?.isSome) := by
  cases ev with
  | start t | empty t =>
    simpa [Markup.Event.nextOpen, Markup.Event.tag?] using ho.openElement h hlen hok
  | finish n => simpa [Markup.Event.nextOpen, Markup.Event.tag?] using ho.closeElement hlen hok
  | text c | cdata c =>
    simp only [Builder.step] at hok
    split at hok
    · split at hok
      · cases hok
      · cases hok
        simpa [Markup.Event.nextOpen, Markup.Event.tag?] using ho
    · cases hok
      simpa [Markup.Event.nextOpen, Markup.Event.tag?] using ho.addLeaf h _ _ _ _
  | comment c | instruction target data =>
    cases hok
    simpa [Markup.Event.nextOpen, Markup.Event.tag?] using ho.addLeaf h _ _ _ _
  | doctype c =>
    simp only [Builder.step] at hok
    split at hok
    · cases hok
    · cases hok
      simp only [Markup.Event.nextOpen, Markup.Event.tag?, Option.isSome_none, Bool.or_false]
      exact ⟨ho.strict, ho.names, ho.scopes, ho.root, ho.opened⟩
  | declaration | endDocument =>
    cases hok
    simpa [Markup.Event.nextOpen, Markup.Event.tag?] using ho

def OpenShallow (tags : List Markup.StartTag) (evs : List (Nat × Markup.Event)) : Prop :=
  ∀ k < evs.length, ((evs.take k).foldl (fun tags x => x.2.nextOpen tags) tags).length < 65535

theorem OpenShallow.head {tags : List Markup.StartTag} {x : Nat × Markup.Event}
    {rest : List (Nat × Markup.Event)} (hs : OpenShallow tags (x :: rest)) : tags.length < 65535 :=
  hs 0 (by simp)

theorem OpenShallow.tail {tags : List Markup.StartTag} {x : Nat × Markup.Event}
    {rest : List (Nat × Markup.Event)} (hs : OpenShallow tags (x :: rest)) :
    OpenShallow (x.2.nextOpen tags) rest :=
  fun k hk => hs (k + 1) (by simp; omega)

theorem run_failure : ∀ {evs : List (Nat × Markup.Event)} {c : Builder}
    {tags : List Markup.StartTag} {rooted : Bool}, Inv c → Outlines c tags rooted →
      OpenShallow tags evs → failureOf (c.run evs) = firstFault tags rooted evs
  | [], _, _, _, _, _, _ => rfl
  | (offset, ev) :: rest, c, tags, rooted, h, ho, hsh => by
    have hstep := step_failure h ho offset ev
    simp only [Builder.run, firstFault]
    split
    · rename_i e he
      rw [he] at hstep
      rw [← hstep]
      rfl
    · rename_i c' hs
      rw [hs] at hstep
      rw [← hstep]
      exact run_failure (h.step hs) (ho.step h hsh.head hs) hsh.tail

theorem Outlines.run : ∀ {evs : List (Nat × Markup.Event)} {c c' : Builder}
    {tags : List Markup.StartTag} {rooted : Bool}, Inv c → Outlines c tags rooted →
      OpenShallow tags evs → c.run evs = .ok c' →
      Outlines c' (evs.foldl (fun tags x => x.2.nextOpen tags) tags)
        (rooted || evs.any (·.2.tag?.isSome))
  | [], _, _, _, _, _, ho, _, hrun => by
    cases hrun
    simpa using ho
  | (offset, ev) :: rest, c, c', tags, rooted, h, ho, hsh, hrun => by
    simp only [Builder.run] at hrun
    split at hrun
    · cases hrun
    · rename_i c1 hs
      have ih := Outlines.run (h.step hs) (ho.step h hsh.head hs) hsh.tail hrun
      simpa [Bool.or_assoc] using ih

end Builder

/-! ## Strict parsing -/

theorem openAfter_eq_foldl (evs : List (Nat × Markup.Event)) :
    openAfter evs = evs.foldl (fun tags x => x.2.nextOpen tags) [] := rfl

/-- Strict parsing of an input whose events each have fewer than 65535 tags open before them
fails with exactly the first thing wrong with it. -/
theorem Document.parse_strict_failure (input : List UInt8)
    (hshallow : ∀ k < (Markup.events true input).1.length,
      (openAfter ((Markup.events true input).1.take k)).length < 65535) :
    failureOf (Document.parse input true) = strictViolation input := by
  unfold Document.parse strictViolation
  cases Text.Utf8.firstInvalid input with
  | some p => rfl
  | none =>
    dsimp only
    have hrun : failureOf ((start true).run (Markup.events true input).1) = _ :=
      run_failure (Inv.start true) Outlines.start hshallow
    split
    · rename_i e he
      rw [he] at hrun
      rw [← hrun]
      rfl
    · rename_i b hb
      rw [hb] at hrun
      rw [← hrun]
      have ho := Outlines.run (Inv.start true) Outlines.start hshallow hb
      rw [Bool.false_or, ← openAfter_eq_foldl] at ho
      -- the outermost open element is the last on the stack and the last open tag
      have hlast := congrArg List.getLast? ho.names
      rw [List.getLast?_map, List.getLast?_map] at hlast
      cases (Markup.events true input).2 with
      | some e => rfl
      | none =>
        simp only [Option.map_none, Option.none_or]
        split
        · rename_i outer hout
          rw [hout] at hlast
          obtain ⟨t, ht, hname⟩ := Option.map_eq_some_iff.mp hlast.symm
          simp [ht, hname, failureOf]
        · rename_i hout
          rw [hout, Option.map_none, eq_comm, Option.map_eq_none_iff] at hlast
          rw [hlast, Option.map_none, Option.none_or]
          unfold Builder.finish
          rw [← ho.root]
          cases b.root
          · rfl
          · rfl

theorem firstFault_eq_none_iff : ∀ (evs : List (Nat × Markup.Event))
    (tags : List Markup.StartTag) (rooted : Bool),
    firstFault tags rooted evs = none ↔ ∀ pre x post, evs = pre ++ x :: post →
      eventFault (pre.foldl (fun tags x => x.2.nextOpen tags) tags)
        (rooted || pre.any (·.2.tag?.isSome)) x.1 x.2 = none
  | [], _, _ => by simp [firstFault]
  | (offset, ev) :: rest, tags, rooted => by
    rw [firstFault, Option.or_eq_none_iff, firstFault_eq_none_iff rest]
    constructor
    · rintro ⟨hev, hrest⟩ pre x post heq
      cases pre with
      | nil =>
        obtain ⟨rfl, -⟩ := List.cons.inj heq
        simpa using hev
      | cons y pre' =>
        obtain ⟨rfl, rfl⟩ := List.cons.inj heq
        simpa [Bool.or_assoc] using hrest pre' x post rfl
    · intro h
      refine ⟨by simpa using h [] (offset, ev) rest rfl, fun pre x post heq => ?_⟩
      simpa [heq, Bool.or_assoc] using h ((offset, ev) :: pre) x post (by simp [heq])

theorem strictViolation_eq_none_iff (input : List UInt8) :
    strictViolation input = none ↔
      Text.Utf8.firstInvalid input = none ∧ (Markup.events true input).2 = none ∧
      (∀ pre x post, (Markup.events true input).1 = pre ++ x :: post →
        eventFault (openAfter pre) (pre.any (·.2.tag?.isSome)) x.1 x.2 = none) ∧
      openAfter (Markup.events true input).1 = [] ∧
      (Markup.events true input).1.any (·.2.tag?.isSome) = true := by
  unfold strictViolation
  cases Text.Utf8.firstInvalid input with
  | some p => simp
  | none =>
    have hroot : ∀ c : Bool, (if c = true then none else some DocumentError.noRootElement) = none ↔
        c = true := by
      intro c
      cases c <;> simp
    simp only [Option.or_eq_none_iff, Option.map_eq_none_iff, List.getLast?_eq_none_iff,
      firstFault_eq_none_iff, Bool.false_or, ← openAfter_eq_foldl, hroot, true_and]
    tauto

/-- Of the inputs whose events each have fewer than 65535 tags open before them, strict parsing
accepts exactly the valid UTF-8 ones whose markup has no lexical fault, whose events are each
allowed after those before them, that leave no element open and that have an element; it refuses
every other one with its first violation, in the order the checks meet them. -/
theorem Document.parse_strict_iff_no_violation (input : List UInt8)
    (hshallow : ∀ k < (Markup.events true input).1.length,
      (openAfter ((Markup.events true input).1.take k)).length < 65535) :
    ((∃ d, Document.parse input true = .ok d) ↔
      Text.Utf8.firstInvalid input = none ∧ (Markup.events true input).2 = none ∧
      (∀ pre x post, (Markup.events true input).1 = pre ++ x :: post →
        eventFault (openAfter pre) (pre.any (·.2.tag?.isSome)) x.1 x.2 = none) ∧
      openAfter (Markup.events true input).1 = [] ∧
      (Markup.events true input).1.any (·.2.tag?.isSome) = true) ∧
    (∀ e, Document.parse input true = .error e ↔ strictViolation input = some e) := by
  have hf := Document.parse_strict_failure input hshallow
  refine ⟨?_, fun e => ?_⟩
  · rw [← strictViolation_eq_none_iff, ← hf]
    cases Document.parse input true <;> simp [failureOf]
  · rw [← hf]
    cases Document.parse input true <;> simp [failureOf]

/-- A document whose prefixed element and attribute are bound on the root nests shallowly and
has no violation, so it is accepted. -/
theorem Document.parse_strict_accepts_bound_prefix :
    (∀ k < (Markup.events true "<a xmlns:p=\"u\"><p:b p:x=\"1\"/></a>".toUTF8.toList).1.length,
      (openAfter ((Markup.events true "<a xmlns:p=\"u\"><p:b p:x=\"1\"/></a>".toUTF8.toList).1.take k)).length < 65535) ∧
    ∃ d, Document.parse "<a xmlns:p=\"u\"><p:b p:x=\"1\"/></a>".toUTF8.toList true = .ok d := by
  have hshallow : ∀ k < (Markup.events true "<a xmlns:p=\"u\"><p:b p:x=\"1\"/></a>".toUTF8.toList).1.length,
      (openAfter ((Markup.events true "<a xmlns:p=\"u\"><p:b p:x=\"1\"/></a>".toUTF8.toList).1.take k)).length < 65535 := by
    decide +kernel
  have hclean : strictViolation "<a xmlns:p=\"u\"><p:b p:x=\"1\"/></a>".toUTF8.toList = none := by decide +kernel
  have herr := (Document.parse_strict_iff_no_violation "<a xmlns:p=\"u\"><p:b p:x=\"1\"/></a>".toUTF8.toList hshallow).2
  refine ⟨hshallow, ?_⟩
  cases hd : Document.parse "<a xmlns:p=\"u\"><p:b p:x=\"1\"/></a>".toUTF8.toList true with
  | ok d => exact ⟨d, rfl⟩
  | error e =>
    have hv := (herr e).mp hd
    rw [hclean] at hv
    cases hv

/-- Two ways strict parsing departs from reporting the first violation in input order and from
binding a prefix by any declaration on an open element. A second top-level element whose
attributes repeat a name is refused for the repeat, found at the end of its tag, and not as a
second root at its start, where the same tag without the repeat is refused. And a prefix
declared on an open element is unbound again by an empty declaration inside it. -/
theorem Document.parse_strict_reports_repeat_before_second_root :
    (Document.parse "<a/><b x=\"1\" x=\"2\"/>".toUTF8.toList true).map (fun _ => ()) =
        .error (.malformed (.lexical .duplicateAttribute) 13) ∧
    (Document.parse "<a/><b x=\"1\"/>".toUTF8.toList true).map (fun _ => ()) =
        .error (.malformed .multipleRoots 4) ∧
    (Document.parse "<a xmlns:p=\"u\"><b xmlns:p=\"\"><p:c/></b></a>".toUTF8.toList true).map
        (fun _ => ()) = .error (.malformed (.unboundPrefix "p") 29) := by
  refine ⟨?_, ?_, ?_⟩ <;> decide +kernel

end XmlPointer
