import CodeHighlight.Proofs.BlockReport
import Mathlib.Data.List.TakeWhile

/-!
# Runs that break off

A run over a document breaks off at the first place with a failure: an outermost preformatted
element whose failure escapes from its handling, or an element for which no level of the stack is
left. What stands in front of it is handled then (`handledOf`), and each preformatted element there
is replaced as a whole, by its fate; that element and everything behind it are as they were. Main
statement: `transform_eq_prefix`.

A visit of a part of the tree replaces the elements that are handled in that part
(`visit_replaces`). Elements are told apart by their numbers, so that the parts do not interfere.
-/

namespace CodeHighlight.Html.Node
variable {f : Place → Element}

mutual

/-- A tree whose outermost elements stay as they are stays as it is. -/
theorem mapOutermost_eq_self {n : ℕ} :
    {m : Node} → (∀ p ∈ outermost n m, f p = p.element) → mapOutermost f n m = m
  | .element tag children, h => by
    by_cases hname : tag.name = "pre"
    · rw [outermost_of_pre hname] at h
      rw [mapOutermost_of_pre f hname, h _ (List.mem_singleton.2 rfl)]
      rfl
    · rw [outermost_of_ne hname] at h
      rw [mapOutermost_of_ne f hname, mapOutermostOf_eq_self h]
  | .text _ _, _ => rfl

theorem mapOutermostOf_eq_self {n : ℕ} :
    {ms : List Node} → (∀ p ∈ outermostOf n ms, f p = p.element) → mapOutermostOf f n ms = ms
  | [], _ => rfl
  | m :: rest, h => by
    rw [outermostOf_cons, List.forall_mem_append] at h
    rw [mapOutermostOf, mapOutermost_eq_self h.1, mapOutermostOf_eq_self h.2]

end

end CodeHighlight.Html.Node

namespace CodeHighlight.Block
open Html (Element Document Place)
open Html.Node (exposed exposedOf places placesOf outermost outermostOf mapOutermost mapOutermostOf)

variable {k : Stack} {c : Config} {r : Registry} {e : Element} {p : Place} {ps ps' : List Place}
  {w w' : Walk Report}

/-! ### Elements that are handled -/

/-- The failure escapes from the place of an element. -/
inductive Escapes (k : Stack) (c : Config) (r : Registry) (p : Place) : Trace → Prop
  /-- No level of the stack is left for the element. -/
  | exhausted (h : p.room = 0) : Escapes k c r p (Stack.exceeded "")
  /-- The levels that are left do not allow to read the preformatted element. -/
  | unread (pre : p.isPre) (h : ¬IsReached k p) : Escapes k c r p (Stack.exceeded "")
  /-- The code cannot be highlighted, and the failure is not one to highlight. -/
  | fails {before after : List Html.Node} {code : Element} {b : Block} {l : String} {g : Grammar}
      {t : Trace} (pre : p.isPre) (holds : Holds c p.element before code after b)
      (lang : b.lang = some l) (grammar : Entries.get? r (.str l) = some g)
      (fails : Highlight.highlight (p.below - k.parsing) g b.value c.policy (some l) = .error t)
      (kind : t.kind ≠ .parse) : Escapes k c r p t
  /-- The code is highlighted, but the levels that are left do not allow to write the span. -/
  | unwritten {before after : List Html.Node} {code : Element} {b : Block} {l : String}
      {g : Grammar} {span : Span} (pre : p.isPre) (holds : Holds c p.element before code after b)
      (lang : b.lang = some l) (grammar : Entries.get? r (.str l) = some g)
      (succeeds :
        Highlight.highlight (p.below - k.parsing) g b.value c.policy (some l) = .ok span)
      (full : p.below - k.marking < span.height) : Escapes k c r p (Stack.exceeded "")

/-- A failure that ends the run escapes from its place. A preformatted element at which it arises is
left as it is. -/
theorem escapes_of_failure? {t : Trace} (h : failure? k c r p = some t) :
    Escapes k c r p t ∧ (p.room ≠ 0 → rewritten k c r p = p.element) := by
  unfold failure? at h
  split_ifs at h with hroom hpre
  · cases h
    exact ⟨.exhausted hroom, fun hne => absurd hroom hne⟩
  unfold rewritten
  by_cases hr : IsReached k p
  swap
  · have hshort : p.below < k.reading := by
      unfold IsReached at hr
      unfold Place.below
      omega
    rw [alone, handler, if_pos hshort] at h ⊢
    cases h
    exact ⟨.unread hpre hr, fun _ => rfl⟩
  by_cases hm : c.marker ∈ p.element.tag.classes
  · rw [alone_of_marked hr hm] at h
    cases h
  rcases hb : ofElement? p.element with _ | b
  · rw [alone_of_ofElement?_eq_none hr hb] at h
    cases h
  obtain ⟨before, code, after, holds⟩ := exists_holds hm hb
  rw [holds.alone hr] at h ⊢
  rcases hl : b.lang with _ | l
  · have hnone : highlight? (p.below - k.parsing) c r b = none := by rw [highlight?, hl]
    rw [hnone] at h
    cases h
  rw [highlight?_of_get? hl (holds.ne_empty hl)] at h ⊢
  rcases hg : Entries.get? r (.str l) with _ | g
  · rw [hg] at h
    cases h
  rw [hg, Option.map_some] at h
  rw [Option.map_some]
  rcases hh : Highlight.highlight (p.below - k.parsing) g b.value c.policy (some l) with t' | span
  · rw [hh] at h
    dsimp only at h ⊢
    split_ifs at h ⊢ with hk
    cases h
    exact ⟨.fails hpre holds hl hg hh hk, fun _ => rfl⟩
  · rw [hh] at h
    dsimp only at h ⊢
    split_ifs at h ⊢ with hfull
    cases h
    exact ⟨.unwritten hpre holds hl hg hh hfull, fun _ => rfl⟩

/-- The places that are handled before a failure escapes. -/
def handledOf (k : Stack) (c : Config) (r : Registry) (ps : List Place) : List Place :=
  ps.takeWhile fun p => (failure? k c r p).isNone

/-- The numbers of the elements at some places. -/
def numbersOf (ps : List Place) : List ℕ := ps.map fun p => p.element.tag.id

/-- What takes the place of an element when these places are handled: the elements are told apart
by their numbers. -/
def replacing (k : Stack) (c : Config) (r : Registry) (handled : List Place) (p : Place) :
    Element :=
  if p.element.tag.id ∈ numbersOf handled then rewritten k c r p else p.element

theorem replacing_of_mem {handled : List Place} (h : p ∈ handled) :
    replacing k c r handled p = rewritten k c r p :=
  if_pos (List.mem_map_of_mem (f := fun q : Place => q.element.tag.id) h)

theorem replacing_of_not_mem {handled : List Place}
    (h : p.element.tag.id ∉ numbersOf handled) : replacing k c r handled p = p.element := if_neg h

theorem replacing_append {handled : List Place} (h : p.element.tag.id ∉ numbersOf ps) :
    replacing k c r (ps ++ handled) p = replacing k c r handled p := by
  have hiff : p.element.tag.id ∈ numbersOf (ps ++ handled) ↔
      p.element.tag.id ∈ numbersOf handled := by
    rw [numbersOf, List.map_append, List.mem_append]
    exact or_iff_right h
  simp only [replacing, hiff]

/-- What stands in front of the first failure is handled. -/
theorem handledOf_eq_of_split {t : Trace} (hbefore : ∀ q ∈ ps, failure? k c r q = none)
    (hp : failure? k c r p = some t) (pending : List Place) :
    handledOf k c r (ps ++ p :: pending) = ps := by
  rw [handledOf, List.takeWhile_append_of_pos fun q hq => by simp [hbefore q hq],
    List.takeWhile_cons_of_neg (by simp [hp]), List.append_nil]

/-- The first failure stands right behind the places that are handled. -/
theorem exists_split_of_findSome? {t : Trace} (h : ps.findSome? (failure? k c r) = some t) :
    ∃ p pending, ps = handledOf k c r ps ++ p :: pending ∧
      (∀ q ∈ handledOf k c r ps, failure? k c r q = none) ∧ failure? k c r p = some t := by
  obtain ⟨before, p, pending, rfl, hp, hbefore⟩ := List.findSome?_eq_some_iff.1 h
  rw [handledOf_eq_of_split hbefore hp]
  exact ⟨p, pending, rfl, hbefore, hp⟩

theorem handledOf_append_of_eq_some {t : Trace} (h : ps.findSome? (failure? k c r) = some t) :
    handledOf k c r (ps ++ ps') = handledOf k c r ps := by
  obtain ⟨before, p, pending, rfl, hp, hbefore⟩ := List.findSome?_eq_some_iff.1 h
  rw [List.append_assoc, List.cons_append, handledOf_eq_of_split hbefore hp,
    handledOf_eq_of_split hbefore hp]

theorem handledOf_append_of_eq_none (h : ps.findSome? (failure? k c r) = none) :
    handledOf k c r (ps ++ ps') = ps ++ handledOf k c r ps' := by
  rw [List.findSome?_eq_none_iff] at h
  exact List.takeWhile_append_of_pos fun p hp => by simp [h p hp]

theorem handledOf_of_eq_none (h : ps.findSome? (failure? k c r) = none) :
    handledOf k c r ps = ps := by
  have happend : handledOf k c r (ps ++ []) = ps ++ handledOf k c r [] :=
    handledOf_append_of_eq_none h
  rwa [List.append_nil, show handledOf k c r [] = [] from rfl, List.append_nil] at happend

/-- A failure at the first place leaves nothing handled. -/
theorem handledOf_cons_of_eq_some {t : Trace} (h : failure? k c r p = some t) (ps : List Place) :
    handledOf k c r (p :: ps) = [] := by
  rw [handledOf, List.takeWhile_cons_of_neg (by simp [h])]

theorem handledOf_cons_of_eq_none (h : failure? k c r p = none) (ps : List Place) :
    handledOf k c r (p :: ps) = p :: handledOf k c r ps := by
  rw [handledOf, List.takeWhile_cons_of_pos (by simp [h])]
  rfl

theorem mapOutermost_replacing_nil (n : ℕ) (m : Html.Node) :
    mapOutermost (replacing k c r []) n m = m :=
  Html.Node.mapOutermost_eq_self fun _ _ => replacing_of_not_mem List.not_mem_nil

/-! ### Visits -/

/-- What a visit of an element does to the tree: those of the outermost elements at and below it
that are handled are replaced. -/
def Replaces (k : Stack) (c : Config) (r : Registry) (n : ℕ) : Prop :=
  ∀ (e : Element) (w : Walk Report), ((exposed e.toNode).map fun x => x.tag.id).Nodup →
    (∀ x ∈ exposed e.toNode, w.IsUnmarked x.tag.id) →
    (RuleTable.visit (rules k c r) n e w).1.toNode =
      mapOutermost (replacing k c r (handledOf k c r (places n e.toNode))) n e.toNode

/-- Nodes are visited one after the other, up to the first failure. -/
theorem Replaces.visitAll {n : ℕ} (h : Replaces k c r n) {ns : List Html.Node}
    (hnodup : ((exposedOf ns).map fun x => x.tag.id).Nodup)
    (hw : ∀ x ∈ exposedOf ns, w.IsUnmarked x.tag.id) :
    (RuleTable.visitAll (RuleTable.visit (rules k c r) n) w ns).1 =
      mapOutermostOf (replacing k c r (handledOf k c r (placesOf n ns))) n ns := by
  induction ns generalizing w with
  | nil => rfl
  | cons m ns ih =>
    rw [exposedOf, List.map_append, List.nodup_append] at hnodup
    rw [exposedOf, List.forall_mem_append] at hw
    rw [placesOf, mapOutermostOf]
    cases m with
    | text kind s =>
      have hnodes := ih hnodup.2.1 hw.2
      rw [RuleTable.visitAll]
      show Html.Node.text kind s :: _ = _
      rw [hnodes]
      rfl
    | element tag children =>
      have hnode := h ⟨tag, children⟩ w hnodup.1 hw.1
      obtain ⟨hpasses, -⟩ := visit_spec (k := k) (c := c) (r := r) n ⟨tag, children⟩ w hnodup.1
        hw.1
      -- the outermost elements of the other nodes have other numbers
      have hother : ∀ p ∈ outermostOf n ns, ∀ handled : List Place,
          handled.Sublist (places n (.element tag children)) →
            p.element.tag.id ∉ numbersOf handled := by
        intro p hp handled hsub hid
        obtain ⟨q, hq, hqp⟩ := List.mem_map.1 hid
        exact hnodup.2.2 _
          (List.mem_map_of_mem (Html.Node.element_mem_exposed (hsub.subset hq))) _
          (List.mem_map_of_mem (Html.Node.element_mem_exposedOf (List.mem_of_mem_filter hp))) hqp
      rw [RuleTable.visitAll]
      rcases hv : RuleTable.visit (rules k c r) n ⟨tag, children⟩ w with ⟨e', w', _ | t⟩
      · rw [hv] at hnode hpasses
        have hfirst := hpasses.failure.symm
        have hrest := hpasses.unmarked hnodup.2.2 hw.2
        show e'.toNode :: _ = _
        rw [hnode, ih hnodup.2.1 hrest]
        simp only [Element.toNode] at hfirst ⊢
        rw [handledOf_append_of_eq_none hfirst, handledOf_of_eq_none hfirst]
        congr 1
        · refine Html.Node.mapOutermost_congr fun p hp => ?_
          have hmem := Html.Node.mem_places_of_mem_outermost hp
          rw [replacing_of_mem hmem, replacing_of_mem (List.mem_append_left _ hmem)]
        · refine Html.Node.mapOutermostOf_congr fun p hp => ?_
          rw [replacing_append (hother p hp _ (List.Sublist.refl _))]
      · rw [hv] at hnode hpasses
        have hfirst := hpasses.failure.symm
        show e'.toNode :: ns = _
        rw [hnode]
        simp only [Element.toNode] at hfirst ⊢
        rw [handledOf_append_of_eq_some hfirst, Html.Node.mapOutermostOf_eq_self]
        exact fun p hp => replacing_of_not_mem (hother p hp _ (List.takeWhile_sublist _))

/-- **A visit replaces the elements that are handled**, whether it breaks off or not. -/
theorem visit_replaces (n : ℕ) : Replaces k c r n := by
  induction n with
  | zero =>
    intro e w _ _
    have hzero : failure? k c r ⟨0, e⟩ = some (Stack.exceeded "") := rfl
    rw [RuleTable.visit, Element.toNode, places, handledOf_cons_of_eq_some hzero,
      mapOutermost_replacing_nil]
  | succ n ih =>
    intro e w hnodup hw
    have hroot : w.IsUnmarked e.tag.id := hw e List.mem_cons_self
    by_cases hname : e.tag.name = "pre"
    · -- the element is the only outermost one: it is handled, or its failure escapes
      have hplaces : places (n + 1) e.toNode = [⟨n + 1, e⟩] := Html.Node.places_of_pre hname
      have hvisit : (RuleTable.visit (rules k c r) (n + 1) e w).1 = rewritten k c r ⟨n + 1, e⟩ :=
        (visit_of_pre n hname hroot).2
      rw [hplaces, hvisit]
      rcases hf : failure? k c r ⟨n + 1, e⟩ with _ | t
      · rw [handledOf_of_eq_none (by simp [hf]), Element.toNode, Element.toNode,
          Html.Node.mapOutermost_of_pre _ hname, replacing_of_mem (List.mem_singleton.2 rfl)]
        rfl
      · rw [handledOf_cons_of_eq_some hf, mapOutermost_replacing_nil,
          (escapes_of_failure? hf).2 (Nat.succ_ne_zero n)]
    · -- the element itself has no outermost element in its place
      have hself : failure? k c r ⟨n + 1, e⟩ = none := failure?_of_ne hname
      have hne : ∀ p ∈ outermostOf n e.children, p.element.tag.id ≠ e.tag.id := by
        intro p hp hid
        rw [Element.toNode, Html.Node.exposed_of_ne hname, List.map_cons, List.nodup_cons] at hnodup
        refine hnodup.1 (List.mem_map.2 ⟨p.element, ?_, hid⟩)
        exact Html.Node.element_mem_exposedOf (List.mem_of_mem_filter hp)
      rw [Element.toNode, Html.Node.exposed_of_ne hname] at hnodup hw
      have hnodes := ih.visitAll (w := { w with room := n }) (List.nodup_cons.1 hnodup).2
        fun x hx => hw x (List.mem_cons_of_mem _ hx)
      have hsup : Walk.isSuppressed { w with room := n } e.tag.id = false := hroot.2
      rw [RuleTable.visit, rulesFor_of_ne hname, RuleTable.dispatch]
      dsimp only
      rw [hsup, if_neg Bool.false_ne_true]
      dsimp only
      rw [Element.toNode, Element.toNode, Html.Node.places_of_ne hname,
        handledOf_cons_of_eq_none hself, Html.Node.mapOutermost_of_ne _ hname, hnodes,
        Nat.add_sub_cancel]
      congr 1
      refine Html.Node.mapOutermostOf_congr fun p hp => ?_
      have hother : p.element.tag.id ∉ numbersOf [⟨n + 1, e⟩] := by
        simpa [numbersOf] using hne p hp
      exact (replacing_append hother).symm

/-- **A run replaces the elements that are handled**, and nothing else. It ends when all places are,
and otherwise breaks off with the failure at the first one that is not. -/
theorem transform_eq_prefix (k : Stack) (c : Config) (r : Registry) {d : Document}
    (hd : d.IsNumbered) :
    let (d', _, t) := transform k c r d
    t = (places k.levels d.root.toNode).findSome? (failure? k c r) ∧
      d'.root.toNode = mapOutermost
        (replacing k c r (handledOf k c r (places k.levels d.root.toNode))) k.levels
        d.root.toNode ∧
      d'.nextId = d.nextId := by
  have hfresh (x : Element) : (({ nextId := d.nextId, data := {} } : Walk Report)).IsUnmarked
      x.tag.id := ⟨rfl, rfl⟩
  obtain ⟨hpasses, -⟩ := visit_spec (k := k) (c := c) (r := r) k.levels d.root
    { nextId := d.nextId, data := {} } hd fun x _ => hfresh x
  exact ⟨hpasses.failure, visit_replaces _ d.root _ hd fun x _ => hfresh x, hpasses.nextId⟩

/-- How far a document has come: the walk has passed some of the places, the first ones in document
order, the preformatted elements there are replaced as a whole by their fates, and nothing else is
changed. With a report these are all places; with a failure it escapes from the first one that is
left. -/
structure Progress (k : Stack) (c : Config) (r : Registry) (d d' : Document)
    (result : Except Trace Report) : Prop where
  prefixes : ∃ (become : Place → Element × Report) (handled pending : List Place),
    places k.levels d.root.toNode = handled ++ pending ∧
    (∀ p ∈ handled, p.isPre → Fate k c r p (become p)) ∧
    d'.root.toNode = mapOutermost
      (fun p => if p.element.tag.id ∈ numbersOf handled then (become p).1 else p.element) k.levels
      d.root.toNode ∧
    match result with
    | .ok report =>
      pending = [] ∧ report = .join ((handled.filter Place.isPre).map fun p => (become p).2)
    | .error t => ∃ p rest, pending = p :: rest ∧ Escapes k c r p t
  nextId : d'.nextId = d.nextId

/-- What a run leaves, whether it ends or breaks off. -/
theorem progress_of_transform (k : Stack) (c : Config) (r : Registry) {d : Document}
    (hd : d.IsNumbered) :
    let (d', report, t) := transform k c r d
    Progress k c r d d' (match t with
      | none => .ok report
      | some t => .error t) := by
  have hspec := transform_spec k c r hd
  have hprefix := transform_eq_prefix k c r hd
  rcases hrun : transform k c r d with ⟨d', report, t⟩
  rw [hrun] at hspec hprefix
  obtain ⟨ht, hroot, hnext⟩ := hprefix
  have hfate (p : Place) (hp : failure? k c r p = none) (hpre : p.isPre = true) :
      Fate k c r p (rewritten k c r p, reportOf k c r p) :=
    fate_of_failure?_eq_none (by simpa [Place.isPre] using hpre) hp
  refine ⟨⟨fun p => (rewritten k c r p, reportOf k c r p), ?_⟩, hnext⟩
  cases t with
  | none =>
    have hall := handledOf_of_eq_none ht.symm
    rw [hall] at hroot
    refine ⟨places k.levels d.root.toNode, [], by simp, fun p hp => ?_, hroot, rfl,
      (hspec.2 rfl).1⟩
    exact hfate p (List.findSome?_eq_none_iff.1 ht.symm p hp)
  | some t =>
    obtain ⟨p, rest, hsplit, hnone, hp⟩ := exists_split_of_findSome? ht.symm
    exact ⟨_, p :: rest, hsplit, fun q hq => hfate q (hnone q hq), hroot, p, rest, rfl,
      (escapes_of_failure? hp).1⟩

end CodeHighlight.Block
