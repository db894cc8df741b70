import CodeHighlight.Proofs.RuleBuckets
import CodeHighlight.Proofs.Towers
import CodeHighlight.Rules.Engine

/-!
# The dispatch of rules

A rule is harmless when its handler alters neither the element it is called on nor the marks of the
walk (`Rule.IsHarmless`). What walks with harmless rules do is told by their stops: the elements
that they come to, each with the rules that are executed there (`Stop`). A run that returns is
nothing but these executions, one after the other (`Stop.perform`).

Main statement: `dispatch_law`, about any number of runs over one tree that share their marks. Each
run stops once, in document order, at the elements below no element on which a rule was executed
that is not nestable. At a stop all rules without a mark are executed, and of those with a mark only
the first, and only at the first stop at that element (`IsRound`).

Within one run a walk is described by the marks at its start (`Tours`): neighbouring parts of the
tree have elements of their own, so that the description of one part is not touched by what the walk
does in the next one (`Tours.append`). The step is `Visits.succ`, the whole run `run_spec`. From run
to run the marks tell of the stops that were made before (`Remembers`).
-/

namespace CodeHighlight

/-! ### Positions -/

namespace Html

/-- An element of a tree with the elements around it, nearest first. -/
structure Position where
  element : Element
  above : List Element

/-- The number of the element at a position. -/
def Position.id (p : Position) : ℕ := p.element.tag.id

namespace Node

mutual

/-- The positions at and below a node that has elements around it, in document order. -/
def positions (above : List Element) : Node → List Position
  | .element tag children =>
    ⟨⟨tag, children⟩, above⟩ :: positionsOf (⟨tag, children⟩ :: above) children
  | .text _ _ => []

/-- The positions at and below several nodes, in document order. -/
def positionsOf (above : List Element) : List Node → List Position
  | [] => []
  | n :: rest => positions above n ++ positionsOf above rest

end

mutual

/-- The positions of a tree are those of its elements. -/
theorem map_element_positions (above : List Element) :
    (n : Node) → (positions above n).map (·.element) = elements n
  | .element tag children => by
    rw [positions, elements, List.map_cons, map_element_positionsOf]
  | .text _ _ => rfl

theorem map_element_positionsOf (above : List Element) :
    (ns : List Node) → (positionsOf above ns).map (·.element) = elementsOf ns
  | [] => rfl
  | n :: rest => by
    rw [positionsOf, elementsOf, List.map_append, map_element_positions, map_element_positionsOf]

end

mutual

/-- Around every position are the given elements, and others from the tree itself. -/
theorem above_of_mem_positions {above : List Element} {p : Position} :
    (n : Node) → p ∈ positions above n →
      (∀ a ∈ above, a ∈ p.above) ∧
        ∀ a ∈ p.above, a ∈ above ∨ ∃ q ∈ positions above n, q.element = a
  | .element tag children, hp => by
    rw [positions] at hp ⊢
    rcases List.mem_cons.1 hp with rfl | hp
    · exact ⟨fun a ha => ha, fun a ha => .inl ha⟩
    · obtain ⟨hsub, hsup⟩ := above_of_mem_positionsOf children hp
      refine ⟨fun a ha => hsub a (List.mem_cons_of_mem _ ha), fun a ha => ?_⟩
      rcases hsup a ha with ha | ⟨q, hq, hqa⟩
      · rcases List.mem_cons.1 ha with rfl | ha
        · exact .inr ⟨_, List.mem_cons_self, rfl⟩
        · exact .inl ha
      · exact .inr ⟨q, List.mem_cons_of_mem _ hq, hqa⟩
  | .text _ _, hp => by cases hp

theorem above_of_mem_positionsOf {above : List Element} {p : Position} :
    (ns : List Node) → p ∈ positionsOf above ns →
      (∀ a ∈ above, a ∈ p.above) ∧
        ∀ a ∈ p.above, a ∈ above ∨ ∃ q ∈ positionsOf above ns, q.element = a
  | [], hp => by cases hp
  | n :: rest, hp => by
    rw [positionsOf] at hp ⊢
    rcases List.mem_append.1 hp with hp | hp
    · obtain ⟨hsub, hsup⟩ := above_of_mem_positions n hp
      refine ⟨hsub, fun a ha => (hsup a ha).imp_right ?_⟩
      rintro ⟨q, hq, hqa⟩
      exact ⟨q, List.mem_append_left _ hq, hqa⟩
    · obtain ⟨hsub, hsup⟩ := above_of_mem_positionsOf rest hp
      refine ⟨hsub, fun a ha => (hsup a ha).imp_right ?_⟩
      rintro ⟨q, hq, hqa⟩
      exact ⟨q, List.mem_append_right _ hq, hqa⟩

end

end Node

/-- Positions with different elements, in two parts. -/
theorem Position.ne_of_nodup_append {ps qs : List Position}
    (h : ((ps ++ qs).map Position.id).Nodup) :
    ∀ p ∈ ps, ∀ q ∈ qs, q.id ≠ p.id := by
  intro p hp q hq hid
  rw [List.map_append, List.nodup_append] at h
  exact h.2.2 _ (List.mem_map_of_mem hp) _ (List.mem_map_of_mem hq) hid.symm

/-- The elements at the second positions are neither at the first positions nor around them. -/
def Apart (ps qs : List Position) : Prop :=
  ∀ p ∈ ps, ∀ q ∈ qs, q.id ≠ p.id ∧ ∀ a ∈ p.above, q.id ≠ a.tag.id

/-- The positions of a tree, in document order. -/
def Element.positions (root : Element) : List Position := Node.positions [] root.toNode

theorem Element.IsNumbered.nodup_positions {root : Element} (h : root.IsNumbered) :
    (root.positions.map Position.id).Nodup := by
  rw [Element.IsNumbered, ← Node.map_element_positions [], List.map_map] at h
  exact h

/-- A position of such a tree is told by its number. -/
theorem Element.IsNumbered.eq_of_id_eq {root : Element} (h : root.IsNumbered) {p q : Position}
    (hp : p ∈ root.positions) (hq : q ∈ root.positions) (hid : p.id = q.id) : p = q :=
  List.inj_on_of_nodup_map h.nodup_positions hp hq hid

end Html

open Html (Apart Element Position)

/-! ### Rules that are harmless -/

namespace Rule
variable {σ : Type} {r : Rule σ} {rules : List (Rule σ)} {e : Element} {w : Walk σ} {i : ℕ}

/-- The handler alters neither the element nor the marks. -/
structure IsHarmless (r : Rule σ) : Prop where
  element : ∀ e w, (r.handler e w).1 = e
  processed : ∀ e w, (r.handler e w).2.1.processed = w.processed
  suppressed : ∀ e w, (r.handler e w).2.1.suppressed = w.suppressed

/-- The handler does not fail. -/
def NeverFails (r : Rule σ) : Prop := ∀ e w, (r.handler e w).2.2 = none

theorem isHarmless_note (name : String) (priority : Int) (tags : List String)
    (autoMark nestable : Bool) : (note name priority tags autoMark nestable).IsHarmless :=
  ⟨fun _ _ => rfl, fun _ _ => rfl, fun _ _ => rfl⟩

theorem neverFails_note (name : String) (priority : Int) (tags : List String)
    (autoMark nestable : Bool) : (note name priority tags autoMark nestable).NeverFails :=
  fun _ _ => rfl

/-- What is shared when a rule has been executed on an element: what the handler leaves, and the
marks of the rule. -/
def perform (e : Element) (w : Walk σ) (r : Rule σ) : Walk σ :=
  let w' := (r.handler e w).2.1
  let w' := if r.autoMark then w'.mark e.tag.id else w'
  if r.nestable then w' else w'.suppress e.tag.id

theorem mem_processed_perform (h : r.IsHarmless) :
    i ∈ (perform e w r).processed ↔ i ∈ w.processed ∨ i = e.tag.id ∧ r.autoMark = true := by
  unfold perform
  cases hmark : r.autoMark <;> cases hnest : r.nestable <;>
    simp [Walk.mark, Walk.suppress, h.processed, or_comm]

theorem mem_suppressed_perform (h : r.IsHarmless) :
    i ∈ (perform e w r).suppressed ↔ i ∈ w.suppressed ∨ i = e.tag.id ∧ r.nestable = false := by
  unfold perform
  cases hmark : r.autoMark <;> cases hnest : r.nestable <;>
    simp [Walk.mark, Walk.suppress, h.suppressed, or_comm]

/-- The rules that are executed, of those for an element: all that leave no mark, and the first one
that leaves a mark unless the element is marked. -/
def executed (marked : Bool) : List (Rule σ) → List (Rule σ)
  | [] => []
  | r :: rest =>
    if r.autoMark && marked then executed marked rest
    else r :: executed (marked || r.autoMark) rest

theorem executed_sublist (marked : Bool) (rules : List (Rule σ)) :
    (executed marked rules).Sublist rules := by
  induction rules generalizing marked with
  | nil => exact .slnil
  | cons r rest ih =>
    rw [executed]
    split_ifs
    · exact (ih marked).cons r
    · exact (ih _).cons_cons r

theorem filter_executed_plain (marked : Bool) (rules : List (Rule σ)) :
    (executed marked rules).filter (!·.autoMark) = rules.filter (!·.autoMark) := by
  induction rules generalizing marked with
  | nil => rfl
  | cons r rest ih => cases hr : r.autoMark <;> cases marked <;> simp [executed, hr, ih]

theorem filter_executed_marking (marked : Bool) (rules : List (Rule σ)) :
    (executed marked rules).filter (·.autoMark) =
      if marked then [] else (rules.find? (·.autoMark)).toList := by
  induction rules generalizing marked with
  | nil => cases marked <;> rfl
  | cons r rest ih => cases hr : r.autoMark <;> cases marked <;> simp [executed, hr, ih]

end Rule

namespace RuleTable
variable {σ : Type} {e : Element} {w : Walk σ} {rules : List (Rule σ)} {i : ℕ}

/-- **The dispatch on one element.** Harmless rules leave the element as it is; if no handler fails,
the dispatch returns, and then the rules that had to be executed were executed in order. -/
theorem dispatch_spec (h : ∀ r ∈ rules, r.IsHarmless) :
    (dispatch e w rules).1 = e ∧
      ((∀ r ∈ rules, r.NeverFails) → (dispatch e w rules).2.2 = none) ∧
      ((dispatch e w rules).2.2 = none → (dispatch e w rules).2.1 =
        (Rule.executed (w.isProcessed e.tag.id) rules).foldl (Rule.perform e) w) := by
  induction rules generalizing w with
  | nil => exact ⟨rfl, fun _ => rfl, fun _ => rfl⟩
  | cons r rest ih =>
    obtain ⟨hr, hrest⟩ := List.forall_mem_cons.1 h
    rw [dispatch, Rule.executed]
    by_cases hskip : (r.autoMark && w.isProcessed e.tag.id) = true
    · rw [if_pos hskip, if_pos hskip]
      obtain ⟨helement, htotal, heffect⟩ := ih hrest (w := w)
      exact ⟨helement, fun ht => htotal (List.forall_mem_cons.1 ht).2, heffect⟩
    · rw [if_neg hskip, if_neg hskip]
      have helement := hr.element e w
      -- a rule that leaves a mark has marked the element for the rules behind it
      have hmarked : (Rule.perform e w r).isProcessed e.tag.id =
          (w.isProcessed e.tag.id || r.autoMark) := by
        rw [Bool.eq_iff_iff, Walk.isProcessed, List.contains_iff_mem, Rule.mem_processed_perform hr]
        simp [Walk.isProcessed]
      obtain ⟨hrestElement, htotal, heffect⟩ := ih hrest (w := Rule.perform e w r)
      rw [hmarked] at heffect
      unfold Rule.perform at hrestElement htotal heffect
      unfold Rule.NeverFails
      rcases hhandler : r.handler e w with ⟨e', w', _ | t⟩
      · rw [hhandler] at helement hrestElement htotal heffect
        dsimp only at helement
        subst helement
        refine ⟨hrestElement, fun ht => htotal (List.forall_mem_cons.1 ht).2, fun ht => ?_⟩
        rw [List.foldl_cons, Rule.perform, hhandler]
        exact heffect ht
      · rw [hhandler] at helement
        refine ⟨helement, fun ht => ?_, by rintro ⟨⟩⟩
        have hfails := (List.forall_mem_cons.1 ht).1 e w
        rw [hhandler] at hfails
        exact hfails

end RuleTable

/-! ### Stops -/

/-- A stop of a walk: a position, and the rules that are executed on the element there, in order. -/
structure Stop (σ : Type) where
  position : Position
  rules : List (Rule σ)

/-- What is shared when a walk with so many levels has made a stop. -/
def Stop.perform {σ : Type} (top : ℕ) (w : Walk σ) (s : Stop σ) : Walk σ :=
  s.rules.foldl (Rule.perform s.position.element)
    { w with room := top - (s.position.above.length + 1) }

section Marks
variable {σ : Type} {marks : Walk σ → List ℕ} {leaves : Rule σ → Prop} {top i : ℕ} {w : Walk σ}

/-- Some of the marks of a walk are those that certain rules leave on their elements. -/
structure LeftBy (marks : Walk σ → List ℕ) (leaves : Rule σ → Prop) : Prop where
  room : ∀ w n, marks { w with room := n } = marks w
  perform : ∀ r : Rule σ, r.IsHarmless → ∀ e w i,
    i ∈ marks (Rule.perform e w r) ↔ i ∈ marks w ∨ i = e.tag.id ∧ leaves r

theorem leftBy_processed : LeftBy (σ := σ) Walk.processed fun r => r.autoMark = true :=
  ⟨fun _ _ => rfl, fun _ h _ _ _ => Rule.mem_processed_perform h⟩

theorem leftBy_suppressed : LeftBy (σ := σ) Walk.suppressed fun r => r.nestable = false :=
  ⟨fun _ _ => rfl, fun _ h _ _ _ => Rule.mem_suppressed_perform h⟩

theorem LeftBy.mem_foldl_perform (h : LeftBy marks leaves) {e : Element} {rules : List (Rule σ)}
    (hrules : ∀ r ∈ rules, r.IsHarmless) : i ∈ marks (rules.foldl (Rule.perform e) w) ↔
      i ∈ marks w ∨ e.tag.id = i ∧ ∃ r ∈ rules, leaves r := by
  induction rules generalizing w with
  | nil => simp
  | cons r rest ih =>
    obtain ⟨hr, hrest⟩ := List.forall_mem_cons.1 hrules
    rw [List.foldl_cons, ih hrest, h.perform r hr, eq_comm (a := i)]
    simp only [List.mem_cons, exists_eq_or_imp, and_or_left, or_assoc]

theorem LeftBy.mem_stop (h : LeftBy marks leaves) {s : Stop σ} (hs : ∀ r ∈ s.rules, r.IsHarmless) :
    i ∈ marks (s.perform top w) ↔ i ∈ marks w ∨ s.position.id = i ∧ ∃ r ∈ s.rules, leaves r := by
  rw [Stop.perform, h.mem_foldl_perform hs, h.room]
  rfl

/-- The marks after some stops are those before, and those that the stops have left. -/
theorem LeftBy.mem_stops (h : LeftBy marks leaves) {stops : List (Stop σ)}
    (hstops : ∀ s ∈ stops, ∀ r ∈ s.rules, r.IsHarmless) :
    i ∈ marks (stops.foldl (Stop.perform top) w) ↔
      i ∈ marks w ∨ ∃ s ∈ stops, s.position.id = i ∧ ∃ r ∈ s.rules, leaves r := by
  induction stops generalizing w with
  | nil => simp
  | cons s rest ih =>
    obtain ⟨hs, hrest⟩ := List.forall_mem_cons.1 hstops
    rw [List.foldl_cons, ih hrest, h.mem_stop hs]
    simp only [List.mem_cons, exists_eq_or_imp, or_assoc]

/-- The marks are those that these stops have left. -/
def MarkedBy (marks : Walk σ → List ℕ) (leaves : Rule σ → Prop) (w : Walk σ)
    (stops : List (Stop σ)) : Prop :=
  ∀ i, i ∈ marks w ↔ ∃ s ∈ stops, s.position.id = i ∧ ∃ r ∈ s.rules, leaves r

theorem LeftBy.markedBy_append (h : LeftBy marks leaves) {earlier stops : List (Stop σ)}
    (hw : MarkedBy marks leaves w earlier) (hstops : ∀ s ∈ stops, ∀ r ∈ s.rules, r.IsHarmless) :
    MarkedBy marks leaves (stops.foldl (Stop.perform top) w) (earlier ++ stops) := by
  intro i
  rw [h.mem_stops hstops, hw]
  simp only [List.mem_append, or_and_right, exists_or]

end Marks

namespace RuleTable
open Html (Node)
variable {σ : Type} {table : RuleTable σ} {top n i : ℕ} {ps qs : List Position} {w w' w'' : Walk σ}
  {stops stops' : List (Stop σ)} {t : Option Trace} {e : Element} {above : List Element}

/-- All rules of a table are harmless. -/
def IsHarmless (table : RuleTable σ) : Prop := ∀ name, ∀ r ∈ table.rulesFor name, r.IsHarmless

/-- No handler of a table fails. -/
def NeverFails (table : RuleTable σ) : Prop := ∀ name, ∀ r ∈ table.rulesFor name, r.NeverFails

/-- The stop at a position, when the walk comes to it with these marks. -/
def stopAt (table : RuleTable σ) (w : Walk σ) (p : Position) : Stop σ :=
  ⟨p, Rule.executed (w.isProcessed p.id) (table.rulesFor p.element.tag.name)⟩

theorem IsHarmless.stopAt (h : table.IsHarmless) (w : Walk σ) (p : Position) :
    ∀ r ∈ (table.stopAt w p).rules, r.IsHarmless :=
  fun r hr => h _ r ((Rule.executed_sublist _ _).subset hr)

/-- The walk comes to some positions below given elements: these are others, and the walk is free to
go below them. -/
def ComesTo (w : Walk σ) (above : List Element) (ps : List Position) : Prop :=
  ∀ a ∈ above, a.tag.id ∉ w.suppressed ∧ ∀ p ∈ ps, p.id ≠ a.tag.id

theorem ComesTo.left (h : ComesTo w above (ps ++ qs)) : ComesTo w above ps :=
  fun a ha => ⟨(h a ha).1, fun p hp => (h a ha).2 p (List.mem_append_left _ hp)⟩

/-- The stops are those that a walk makes at these positions, when it has the marks of `w` before.
-/
structure Tours (table : RuleTable σ) (top : ℕ) (ps : List Position) (w : Walk σ)
    (stops : List (Stop σ)) : Prop where
  order : (stops.map (·.position)).Sublist ps
  visited : ∀ p ∈ ps, p ∈ stops.map (·.position) ↔
    ∀ a ∈ p.above, a.tag.id ∉ (stops.foldl (Stop.perform top) w).suppressed
  rules : ∀ s ∈ stops, s = table.stopAt w s.position

namespace Tours

theorem harmless (h : Tours table top ps w stops) (htable : table.IsHarmless) :
    ∀ s ∈ stops, ∀ r ∈ s.rules, r.IsHarmless := by
  intro s hs
  rw [h.rules s hs]
  exact htable.stopAt w s.position

theorem position_mem (h : Tours table top ps w stops) {s : Stop σ} (hs : s ∈ stops) :
    s.position ∈ ps :=
  h.order.subset (List.mem_map_of_mem hs)

/-- A walk leaves marks only on the elements of the positions that it passes. -/
theorem mem_marks_of_ne (h : Tours table top ps w stops) (htable : table.IsHarmless)
    {marks : Walk σ → List ℕ} {leaves : Rule σ → Prop} (hleft : LeftBy marks leaves)
    (hi : ∀ p ∈ ps, p.id ≠ i) :
    i ∈ marks (stops.foldl (Stop.perform top) w) ↔ i ∈ marks w := by
  rw [hleft.mem_stops (h.harmless htable)]
  refine or_iff_left ?_
  rintro ⟨s, hs, hid, -⟩
  exact hi s.position (h.position_mem hs) hid

/-- Below elements that the walk does not enter there are no stops. -/
theorem nil (h : ∀ p ∈ ps, ∃ a ∈ p.above, a.tag.id ∈ w.suppressed) : Tours table top ps w [] where
  order := List.nil_sublist ps
  visited p hp := by
    obtain ⟨a, ha, hmem⟩ := h p hp
    exact iff_of_false List.not_mem_nil fun hall => hall a ha hmem
  rules s hs := by cases hs

/-- A walk stops at an element that it comes to. -/
theorem single (htable : table.IsHarmless) {p : Position} (h : ComesTo w p.above [p]) :
    Tours table top [p] w [table.stopAt w p] where
  order := List.Sublist.refl _
  visited q hq := by
    obtain rfl := List.mem_singleton.1 hq
    refine iff_of_true (List.mem_singleton_self _) fun a ha => ?_
    obtain ⟨hsuppressed, hne⟩ := h a ha
    rw [List.foldl_cons, List.foldl_nil, leftBy_suppressed.mem_stop (htable.stopAt w q)]
    rintro (hmem | ⟨hid, -⟩)
    · exact hsuppressed hmem
    · exact hne q hq hid
  rules s hs := by
    obtain rfl := List.mem_singleton.1 hs
    rfl

/-- **Parts of a tree are toured one after the other** when the elements of the second part are
neither in the first part nor around it. -/
theorem append (h : Tours table top ps w stops) (htable : table.IsHarmless) (hapart : Apart ps qs)
    (h' : Tours table top qs (stops.foldl (Stop.perform top) w) stops') :
    Tours table top (ps ++ qs) w (stops ++ stops') where
  order := by
    rw [List.map_append]
    exact h.order.append h'.order
  visited p hp := by
    have hdisjoint : ∀ p ∈ ps, p ∉ qs := fun p hp hq => (hapart p hp p hq).1 rfl
    rw [List.map_append, List.mem_append, List.foldl_append]
    rcases List.mem_append.1 hp with hp | hp
    · -- marks that are left later are on other elements than those around this position
      rw [or_iff_left fun hmem => hdisjoint p hp (h'.order.subset hmem), h.visited p hp]
      refine forall₂_congr fun a ha => not_congr ?_
      exact (h'.mem_marks_of_ne htable leftBy_suppressed
        fun q hq => (hapart p hp q hq).2 a ha).symm
    · rw [or_iff_right fun hmem => hdisjoint p (h.order.subset hmem) hp]
      exact h'.visited p hp
  rules s hs := by
    rcases List.mem_append.1 hs with hs | hs
    · exact h.rules s hs
    · have hmarked : (stops.foldl (Stop.perform top) w).isProcessed s.position.id =
          w.isProcessed s.position.id := by
        rw [Bool.eq_iff_iff, Walk.isProcessed, Walk.isProcessed, List.contains_iff_mem,
          List.contains_iff_mem]
        exact h.mem_marks_of_ne htable leftBy_processed fun p hp =>
          (hapart p hp s.position (h'.position_mem hs)).1.symm
      rw [h'.rules s hs, stopAt, stopAt]
      exact congrArg (Stop.mk _) (by rw [hmarked])

end Tours

/-! ### Walks -/

/-- The walk over these positions from `w` to `w'`, which ended with `t`: it returns if no handler
fails and there is a level of the stack for each element, and if it returned it has made the stops
of a tour and nothing else. -/
structure Covers (table : RuleTable σ) (top : ℕ) (ps : List Position) (w w' : Walk σ)
    (t : Option Trace) : Prop where
  total : (∀ p ∈ ps, p.above.length < top) → table.NeverFails → t = none
  tours : t = none → ∃ stops, Tours table top ps w stops ∧ w' = stops.foldl (Stop.perform top) w

theorem Covers.append (h : Covers table top ps w w' none) (htable : table.IsHarmless)
    (hapart : Apart ps qs) (h' : Covers table top qs w' w'' t) :
    Covers table top (ps ++ qs) w w'' t where
  total hroom := h'.total fun q hq => hroom q (List.mem_append_right _ hq)
  tours ht := by
    obtain ⟨stops, hstops, rfl⟩ := h.tours rfl
    obtain ⟨stops', hstops', rfl⟩ := h'.tours ht
    exact ⟨stops ++ stops', hstops.append htable hapart hstops', by rw [List.foldl_append]⟩

theorem Covers.nothing (h : Tours table top ps w []) : Covers table top ps w w none :=
  ⟨fun _ _ => rfl, fun _ => ⟨[], h, rfl⟩⟩

theorem Covers.of_failure {f : Trace} (h : Covers table top ps w w' (some f))
    (hsub : ∀ p ∈ ps, p ∈ qs) : Covers table top qs w w'' (some f) where
  total hroom hnever :=
    absurd (h.total (fun p hp => hroom p (hsub p hp)) hnever) (Option.some_ne_none f)
  tours hf := absurd hf (Option.some_ne_none f)

/-- After the first part of the positions the walk comes to the second part. -/
theorem ComesTo.right (h : ComesTo w above (ps ++ qs)) (htable : table.IsHarmless)
    (hfirst : Covers table top ps w w' none) : ComesTo w' above qs := by
  obtain ⟨stops, hstops, rfl⟩ := hfirst.tours rfl
  refine fun a ha => ⟨?_, fun q hq => (h a ha).2 q (List.mem_append_right _ hq)⟩
  rw [hstops.mem_marks_of_ne htable leftBy_suppressed (h.left a ha).2]
  exact (h a ha).1

/-- What visits with so many levels come to: the element stays as it is, and the walk covers the
positions at and below it. -/
def Visits (table : RuleTable σ) (top n : ℕ) : Prop :=
  ∀ e w above, n + above.length = top →
    ((Node.positions above e.toNode).map Position.id).Nodup →
    ComesTo w above (Node.positions above e.toNode) →
    (visit table n e w).1 = e ∧
      Covers table top (Node.positions above e.toNode) w (visit table n e w).2.1
        (visit table n e w).2.2

/-- Nodes are visited one after the other. -/
theorem Visits.visitAll (h : Visits table top n) (htable : table.IsHarmless)
    (hlevel : n + above.length = top) (ns : List Html.Node)
    (hnodup : ((Node.positionsOf above ns).map Position.id).Nodup)
    (hcomes : ComesTo w above (Node.positionsOf above ns)) :
    (visitAll (visit table n) w ns).1 = ns ∧
      Covers table top (Node.positionsOf above ns) w (visitAll (visit table n) w ns).2.1
        (visitAll (visit table n) w ns).2.2 := by
  induction ns generalizing w with
  | nil => exact ⟨rfl, .nothing (.nil fun p hp => absurd hp List.not_mem_nil)⟩
  | cons m ns ih =>
    rw [Node.positionsOf] at hnodup hcomes ⊢
    cases m with
    | text kind s =>
      obtain ⟨hnodes, hcovers⟩ := ih hnodup hcomes
      rw [RuleTable.visitAll]
      exact ⟨congrArg _ hnodes, hcovers⟩
    | element tag children =>
      -- around the positions of the first node are elements around all nodes or of the first node
      have hapart :
          Apart (Node.positions above (.element tag children)) (Node.positionsOf above ns) := by
        have hids := Position.ne_of_nodup_append hnodup
        refine fun p hp q hq => ⟨hids p hp q hq, fun a ha => ?_⟩
        rcases (Node.above_of_mem_positions _ hp).2 a ha with ha | ⟨p', hp', rfl⟩
        · exact (hcomes a ha).2 q (List.mem_append_right _ hq)
        · exact hids p' hp' q hq
      rw [List.map_append] at hnodup
      obtain ⟨helement, hfirst⟩ := h ⟨tag, children⟩ w above hlevel
        hnodup.of_append_left hcomes.left
      rw [RuleTable.visitAll]
      rcases hv : visit table n ⟨tag, children⟩ w with ⟨e', w', _ | f⟩
      · rw [hv] at helement hfirst
        dsimp only at helement hfirst
        subst helement
        obtain ⟨hnodes, hrest⟩ := ih hnodup.of_append_right (hcomes.right htable hfirst)
        exact ⟨congrArg _ hnodes, hfirst.append htable hapart hrest⟩
      · rw [hv] at helement hfirst
        dsimp only at helement hfirst
        subst helement
        exact ⟨rfl, hfirst.of_failure fun p hp => List.mem_append_left _ hp⟩

/-- **A visit of an element**: its rules are dispatched, and then what is below it is visited,
unless a rule that is not nestable was executed on it. -/
theorem Visits.succ (h : Visits table top n) (htable : table.IsHarmless) :
    Visits table top (n + 1) := by
  intro e w above hlevel hnodup hcomes
  have hpositions : Node.positions above e.toNode =
      [⟨e, above⟩] ++ Node.positionsOf (e :: above) e.children := by
    rw [Element.toNode, Node.positions]
    rfl
  rw [hpositions] at hnodup hcomes ⊢
  have hids : ∀ q ∈ Node.positionsOf (e :: above) e.children, q.id ≠ e.tag.id :=
    Position.ne_of_nodup_append hnodup ⟨e, above⟩ (List.mem_singleton_self _)
  have hapart : Apart [⟨e, above⟩] (Node.positionsOf (e :: above) e.children) := by
    intro p hp q hq
    obtain rfl := List.mem_singleton.1 hp
    exact ⟨hids q hq, fun a ha => (hcomes a ha).2 q (List.mem_append_right _ hq)⟩
  obtain ⟨helement, htotal, heffect⟩ := dispatch_spec (e := e) (w := { w with room := n })
    (htable e.tag.name)
  rw [visit]
  rcases hd : dispatch e { w with room := n } (table.rulesFor e.tag.name) with ⟨e', w', _ | f⟩
  · rw [hd] at helement heffect
    dsimp only at helement heffect ⊢
    obtain rfl : e = e' := helement.symm
    have hfirst : Covers table top [⟨e, above⟩] w w' none := by
      refine ⟨fun _ _ => rfl, fun _ => ⟨_, .single htable hcomes.left, ?_⟩⟩
      rw [heffect rfl, List.foldl_cons, List.foldl_nil, Stop.perform, stopAt,
        show top - (above.length + 1) = n by omega]
      rfl
    split_ifs with hsuppressed
    · have hmem : e.tag.id ∈ w'.suppressed := List.contains_iff_mem.1 hsuppressed
      refine ⟨rfl, hfirst.append htable hapart (.nothing (.nil fun p hp => ?_))⟩
      exact ⟨e, (Node.above_of_mem_positionsOf _ hp).1 e List.mem_cons_self, hmem⟩
    · have hmem : e.tag.id ∉ w'.suppressed := fun hmem =>
        hsuppressed (List.contains_iff_mem.2 hmem)
      have hbelow : ComesTo w' (e :: above) (Node.positionsOf (e :: above) e.children) :=
        List.forall_mem_cons.2 ⟨⟨hmem, hids⟩, hcomes.right htable hfirst⟩
      rw [List.map_append] at hnodup
      have hlevel' : n + (e :: above).length = top := by
        rw [List.length_cons]
        omega
      obtain ⟨hnodes, hrest⟩ :=
        h.visitAll htable hlevel' e.children hnodup.of_append_right hbelow
      exact ⟨by rw [hnodes], hfirst.append htable hapart hrest⟩
  · rw [hd] at helement htotal
    dsimp only at helement htotal ⊢
    exact ⟨helement, fun _ hnever => htotal (hnever _), fun hf => absurd hf (Option.some_ne_none f)⟩

/-- Visits cover what they start at. -/
theorem visits (htable : table.IsHarmless) (top : ℕ) : ∀ n, Visits table top n
  | 0 => fun e _ above hlevel _ _ => by
    -- no level is left for the element itself
    refine ⟨rfl, fun hroom => ?_, by rintro ⟨⟩⟩
    have hself : above.length < top := by
      rw [Element.toNode, Node.positions] at hroom
      exact hroom _ List.mem_cons_self
    omega
  | n + 1 => (visits htable top n).succ htable

/-- **A run** leaves the tree as it is and covers all its positions. -/
theorem run_spec (htable : table.IsHarmless) {root : Element} (hroot : root.IsNumbered)
    (levels : ℕ) (w : Walk σ) :
    (run table levels root w).1 = root ∧
      Covers table levels root.positions w (run table levels root w).2.1
        (run table levels root w).2.2 :=
  visits htable levels levels root w [] rfl hroot.nodup_positions
    fun _ ha => absurd ha List.not_mem_nil

/-! ### Runs that share their marks -/

/-- The executions of rules that leave a mark on the element with a number. -/
def markings (i : ℕ) (stops : List (Stop σ)) : List (Rule σ) :=
  (stops.filter fun s => s.position.id = i).flatMap fun s => s.rules.filter (·.autoMark)

theorem markings_append (i : ℕ) (stops stops' : List (Stop σ)) :
    markings i (stops ++ stops') = markings i stops ++ markings i stops' := by
  rw [markings, List.filter_append, List.flatMap_append]
  rfl

theorem markings_eq_nil
    (h : ∀ s ∈ stops, s.position.id = i → s.rules.filter (·.autoMark) = []) :
    markings i stops = [] := by
  refine List.flatMap_eq_nil_iff.2 fun s hs => ?_
  obtain ⟨hs, hid⟩ := List.mem_filter.1 hs
  exact h s hs (of_decide_eq_true hid)

/-- What the stops of one run are, after the stops of earlier runs. -/
structure IsRound (table : RuleTable σ) (root : Element) (earlier stops : List (Stop σ)) :
    Prop where
  once : (stops.map (·.position)).Nodup
  order : (stops.map (·.position)).Sublist root.positions
  visited : ∀ p ∈ root.positions, p ∈ stops.map (·.position) ↔
    ∀ a ∈ p.above, ∀ s ∈ earlier ++ stops, s.position.element = a → ∀ r ∈ s.rules, r.nestable = true
  considered : ∀ s ∈ stops, s.rules.Sublist (table.rulesFor s.position.element.tag.name)
  plain : ∀ s ∈ stops, s.rules.filter (!·.autoMark) =
    (table.rulesFor s.position.element.tag.name).filter (!·.autoMark)
  first : ∀ s ∈ stops, s.position ∉ earlier.map (·.position) → s.rules.filter (·.autoMark) =
    ((table.rulesFor s.position.element.tag.name).find? (·.autoMark)).toList
  later : ∀ s ∈ stops, s.position ∈ earlier.map (·.position) → s.rules.filter (·.autoMark) = []

/-- At an element that earlier runs did not come to, at most one rule leaves a mark. -/
theorem IsRound.length_markings {root : Element} {earlier : List (Stop σ)}
    (h : IsRound table root earlier stops) (hroot : root.IsNumbered)
    (hnew : ∀ s ∈ earlier, s.position.id ≠ i) : (markings i stops).length ≤ 1 := by
  have hcount : (stops.filter fun s => s.position.id = i).length ≤ 1 := by
    have hnodup : ((stops.map (·.position)).map Position.id).Nodup :=
      hroot.nodup_positions.sublist (h.order.map _)
    rw [List.map_map] at hnodup
    calc (stops.filter fun s => s.position.id = i).length
      _ = (stops.map (Position.id ∘ (·.position))).count i := by
        rw [List.count_eq_countP, List.countP_map, List.countP_eq_length_filter]
        rfl
      _ ≤ 1 := List.nodup_iff_count_le_one.1 hnodup i
  have hlength : ∀ s ∈ stops.filter fun s => s.position.id = i,
      (s.rules.filter (·.autoMark)).length ≤ 1 := by
    intro s hs
    obtain ⟨hs, hid⟩ := List.mem_filter.1 hs
    rw [h.first s hs fun hold => ?_]
    · exact Option.length_toList_le
    · obtain ⟨s', hs', hposition⟩ := List.mem_map.1 hold
      exact hnew s' hs' (hposition ▸ of_decide_eq_true hid)
  rw [markings]
  generalize (stops.filter fun s => s.position.id = i) = here at hcount hlength
  match here, hcount with
  | [], _ => exact Nat.zero_le 1
  | [s], _ =>
    rw [List.flatMap_singleton]
    exact hlength s (List.mem_singleton_self s)

/-- What the marks of a walk say of the stops that were made before. -/
structure Remembers (table : RuleTable σ) (root : Element) (w : Walk σ) (earlier : List (Stop σ)) :
    Prop where
  positions : ∀ s ∈ earlier, s.position ∈ root.positions
  suppressed : MarkedBy Walk.suppressed (fun r => r.nestable = false) w earlier
  processed : MarkedBy Walk.processed (fun r => r.autoMark = true) w earlier
  settled : ∀ s ∈ earlier, s.position.id ∈ w.processed ∨
    (table.rulesFor s.position.element.tag.name).find? (·.autoMark) = none
  markings : ∀ i, (markings i earlier).length ≤ 1

namespace Remembers
variable {root : Element} {earlier : List (Stop σ)}

theorem nil (nextId : ℕ) (data : σ) : Remembers table root { nextId, data } [] where
  positions s hs := by cases hs
  suppressed i := by simp
  processed i := by simp
  settled s hs := by cases hs
  markings i := Nat.zero_le 1

/-- **A run after others** makes its stops as it should. -/
theorem isRound (h : Remembers table root w earlier) (htable : table.IsHarmless)
    (hroot : root.IsNumbered) (htours : Tours table top root.positions w stops) :
    IsRound table root earlier stops where
  once := hroot.nodup_positions.of_map.sublist htours.order
  order := htours.order
  visited p hp := by
    rw [htours.visited p hp]
    refine forall₂_congr fun a ha => ?_
    obtain ⟨q, hq, rfl⟩ : ∃ q ∈ root.positions, q.element = a :=
      ((Node.above_of_mem_positions _ hp).2 a ha).resolve_left List.not_mem_nil
    rw [leftBy_suppressed.markedBy_append h.suppressed (htours.harmless htable)]
    simp only [not_exists, not_and, Bool.not_eq_false]
    refine forall₂_congr fun s hs => imp_congr_left ?_
    have hposition : s.position ∈ root.positions :=
      (List.mem_append.1 hs).elim (h.positions s) htours.position_mem
    exact ⟨fun hid => congrArg _ (hroot.eq_of_id_eq hposition hq hid),
      fun helement => congrArg (·.tag.id) helement⟩
  considered s hs := by
    rw [htours.rules s hs]
    exact Rule.executed_sublist _ _
  plain s hs := by
    rw [htours.rules s hs]
    exact Rule.filter_executed_plain _ _
  first s hs hnew := by
    have hunmarked : w.isProcessed s.position.id = false := by
      rw [Bool.eq_false_iff, Walk.isProcessed]
      intro hmem
      obtain ⟨s', hs', hid, -⟩ := (h.processed _).1 (List.contains_iff_mem.1 hmem)
      refine hnew (List.mem_map.2 ⟨s', hs', ?_⟩)
      exact hroot.eq_of_id_eq (h.positions s' hs') (htours.position_mem hs) hid
    rw [htours.rules s hs, stopAt, Rule.filter_executed_marking, hunmarked]
    rfl
  later s hs hold := by
    obtain ⟨s', hs', hposition⟩ := List.mem_map.1 hold
    rw [htours.rules s hs, stopAt, Rule.filter_executed_marking]
    split_ifs with hmarked
    · rfl
    · have hunmarked : s.position.id ∉ w.processed := fun hmem =>
        hmarked (List.contains_iff_mem.2 hmem)
      have hnone := (h.settled s' hs').resolve_left (hposition ▸ hunmarked)
      rw [hposition] at hnone
      rw [hnone]
      rfl

/-- The stops of a run are remembered after it. -/
theorem append (h : Remembers table root w earlier) (htable : table.IsHarmless)
    (hroot : root.IsNumbered) (htours : Tours table top root.positions w stops) :
    Remembers table root (stops.foldl (Stop.perform top) w) (earlier ++ stops) where
  positions s hs := (List.mem_append.1 hs).elim (h.positions s) htours.position_mem
  suppressed := leftBy_suppressed.markedBy_append h.suppressed (htours.harmless htable)
  processed := leftBy_processed.markedBy_append h.processed (htours.harmless htable)
  settled s hs := by
    rw [leftBy_processed.mem_stops (htours.harmless htable)]
    rcases List.mem_append.1 hs with hs | hs
    · exact (h.settled s hs).imp_left .inl
    by_cases hmarked : s.position.id ∈ w.processed
    · exact .inl (.inl hmarked)
    rcases hfind : (table.rulesFor s.position.element.tag.name).find? (·.autoMark) with _ | r
    · exact .inr hfind
    · have hrules : s.rules.filter (·.autoMark) = [r] := by
        rw [htours.rules s hs, stopAt, Rule.filter_executed_marking, if_neg, hfind]
        · rfl
        · exact fun hcontains => hmarked (List.contains_iff_mem.1 hcontains)
      obtain ⟨hr, hmark⟩ := List.mem_filter.1 (hrules ▸ List.mem_singleton_self r)
      exact .inl (.inr ⟨s, hs, rfl, r, hr, hmark⟩)
  markings i := by
    have hround := h.isRound htable hroot htours
    rw [markings_append, List.length_append]
    by_cases hold : ∃ s ∈ earlier, s.position.id = i
    · obtain ⟨s, hs, hid⟩ := hold
      have hnil : RuleTable.markings i stops = [] := markings_eq_nil fun s' hs' hid' =>
        hround.later s' hs' (List.mem_map.2 ⟨s, hs,
          hroot.eq_of_id_eq (h.positions s hs) (htours.position_mem hs') (hid.trans hid'.symm)⟩)
      rw [hnil]
      exact h.markings i
    · push Not at hold
      rw [markings_eq_nil fun s hs hid => absurd hid (hold s hs), List.length_nil, Nat.zero_add]
      exact hround.length_markings hroot hold

end Remembers

/-- The tree, what is shared, and the failure of the last run, after so many runs of which each goes
over the tree that the one before has left. -/
def afterRuns (table : RuleTable σ) (levels : ℕ) (root : Element) (w : Walk σ) : ℕ → Handled σ
  | 0 => (root, w, none)
  | k + 1 =>
    run table levels (afterRuns table levels root w k).1 (afterRuns table levels root w k).2.1

section Runs
variable {root : Element} (htable : table.IsHarmless) (hroot : root.IsNumbered) (levels : ℕ)
  (w : Walk σ)
include htable hroot

/-- Runs leave the tree as it is. -/
theorem afterRuns_tree (k : ℕ) : (afterRuns table levels root w k).1 = root := by
  induction k with
  | zero => rfl
  | succ k ih =>
    rw [afterRuns, ih]
    exact (run_spec htable hroot levels _).1

theorem covers_afterRuns (k : ℕ) :
    Covers table levels root.positions (afterRuns table levels root w k).2.1
      (afterRuns table levels root w (k + 1)).2.1
      (afterRuns table levels root w (k + 1)).2.2 := by
  rw [afterRuns, afterRuns_tree htable hroot levels w k]
  exact (run_spec htable hroot levels _).2

theorem afterRuns_returns (hroom : ∀ p ∈ root.positions, p.above.length < levels)
    (hnever : table.NeverFails) : ∀ k, (afterRuns table levels root w k).2.2 = none
  | 0 => rfl
  | k + 1 => (covers_afterRuns htable hroot levels w k).total hroom hnever

/-- What runs do is remembered as long as they return. -/
theorem remembers_afterRuns {stops : ℕ → List (Stop σ)} (hw : Remembers table root w [])
    (hstops : ∀ k, (afterRuns table levels root w (k + 1)).2.2 = none →
      Tours table levels root.positions (afterRuns table levels root w k).2.1 (stops k) ∧
        (afterRuns table levels root w (k + 1)).2.1 =
          (stops k).foldl (Stop.perform levels) (afterRuns table levels root w k).2.1)
    (k : ℕ) (hreturns : ∀ j ≤ k, (afterRuns table levels root w j).2.2 = none) :
    Remembers table root (afterRuns table levels root w k).2.1
      ((List.range k).flatMap stops) := by
  induction k with
  | zero => exact hw
  | succ k ih =>
    obtain ⟨htours, heffect⟩ := hstops k (hreturns (k + 1) le_rfl)
    rw [heffect, List.range_succ, List.flatMap_append, List.flatMap_singleton]
    exact (ih fun j hj => hreturns j (by omega)).append htable hroot htours

end Runs

/-- **The dispatch of rules.** Harmless rules are registered, and runs over a tree share their
marks, of which there are none in the beginning. The tree stays as it is. If no handler fails and no
element has as many elements around it as there are levels of the stack, all runs return. The rules
of a bucket are in the order of priority and name.

As long as runs return, each of them is nothing but its stops. They are in document order at the
elements below no element on which a rule that is not nestable was executed, in this run or before,
and at each of them once. Of the rules for an element, in their order, all without a mark are
executed, and of those with a mark only the first, and only in the first run that stops there. So
over all runs at most one rule with a mark is executed on an element. -/
theorem dispatch_law (rs : List (Rule σ)) (levels : ℕ) (root : Element) (nextId : ℕ) (data : σ)
    (hroot : root.IsNumbered) (hharmless : ∀ r ∈ rs, r.IsHarmless) :
    let after := afterRuns (ofRules rs) levels root { nextId, data }
    (∀ k, (after k).1 = root) ∧
    ((∀ p ∈ root.positions, p.above.length < levels) → (∀ r ∈ rs, r.NeverFails) →
      ∀ k, (after k).2.2 = none) ∧
    (∀ name, ((ofRules rs).rulesFor name).Pairwise Rule.Precedes) ∧
    ∃ stops : ℕ → List (Stop σ), ∀ k, (∀ j ≤ k + 1, (after j).2.2 = none) →
      (after (k + 1)).2.1 = (stops k).foldl (Stop.perform levels) (after k).2.1 ∧
      IsRound (ofRules rs) root ((List.range k).flatMap stops) (stops k) ∧
      ∀ i, (markings i ((List.range (k + 1)).flatMap stops)).length ≤ 1 := by
  intro after
  have htable : (ofRules rs).IsHarmless := fun name r hr =>
    hharmless r (mem_rulesFor_ofRules.1 hr).mem.1
  have hnever (h : ∀ r ∈ rs, r.NeverFails) : (ofRules rs).NeverFails := fun name r hr =>
    h r (mem_rulesFor_ofRules.1 hr).mem.1
  refine ⟨afterRuns_tree htable hroot levels _,
    fun hroom h => afterRuns_returns htable hroot levels _ hroom (hnever h),
    pairwise_rulesFor rs, ?_⟩
  have hexists (k : ℕ) : ∃ stops, (after (k + 1)).2.2 = none →
      Tours (ofRules rs) levels root.positions (after k).2.1 stops ∧
        (after (k + 1)).2.1 = stops.foldl (Stop.perform levels) (after k).2.1 := by
    by_cases hreturns : (after (k + 1)).2.2 = none
    · obtain ⟨stops, hstops⟩ := (covers_afterRuns htable hroot levels _ k).tours hreturns
      exact ⟨stops, fun _ => hstops⟩
    · exact ⟨[], fun h => absurd h hreturns⟩
  choose stops hstops using hexists
  have hremembers := remembers_afterRuns htable hroot levels _ (.nil nextId data) hstops
  refine ⟨stops, fun k hreturns => ⟨(hstops k (hreturns (k + 1) le_rfl)).2, ?_, ?_⟩⟩
  · exact (hremembers k fun j hj => hreturns j (by omega)).isRound htable hroot
      (hstops k (hreturns (k + 1) le_rfl)).1
  · exact (hremembers (k + 1) hreturns).markings

/-- Elements for four rules: a paragraph with a stress that has another paragraph inside, and a
paragraph after it. -/
def foldedRoot : Element :=
  ⟨⟨1, "div", false, []⟩,
    [.element ⟨2, "p", false, []⟩
      [.element ⟨3, "em", false, []⟩ [.element ⟨4, "p", false, []⟩ []]],
    .element ⟨5, "p", false, []⟩ []]⟩

theorem dispatch_law_foldedRoot :
    let after := afterRuns (ofRules fourNotes) Stack.usual.levels foldedRoot
      { nextId := 6, data := [] }
    foldedRoot.IsNumbered ∧ (∀ r ∈ fourNotes, r.IsHarmless) ∧ (∀ r ∈ fourNotes, r.NeverFails) ∧
      (∀ p ∈ foldedRoot.positions, p.above.length < Stack.usual.levels) ∧
      ∃ stops : ℕ → List (Stop (List (String × ℕ))), ∀ k,
        (after (k + 1)).2.1 = (stops k).foldl (Stop.perform Stack.usual.levels) (after k).2.1 ∧
        IsRound (ofRules fourNotes) foldedRoot ((List.range k).flatMap stops) (stops k) ∧
        ∀ i, (markings i ((List.range (k + 1)).flatMap stops)).length ≤ 1 := by
  intro after
  have hroot : foldedRoot.IsNumbered := by
    unfold Element.IsNumbered
    decide
  have hharmless : ∀ r ∈ fourNotes, r.IsHarmless := by simp [fourNotes, Rule.isHarmless_note]
  have hnever : ∀ r ∈ fourNotes, r.NeverFails := by simp [fourNotes, Rule.neverFails_note]
  have hroom : ∀ p ∈ foldedRoot.positions, p.above.length < Stack.usual.levels := by decide
  obtain ⟨-, hreturns, -, stops, hstops⟩ :=
    dispatch_law fourNotes Stack.usual.levels foldedRoot 6 [] hroot hharmless
  exact ⟨hroot, hharmless, hnever, hroom, stops,
    fun k => hstops k fun j _ => hreturns hroom hnever j⟩

/-- In the first run the inner paragraph is left out, and in the second run only rules without a
mark are executed. -/
example :
    (afterRuns (ofRules fourNotes) 3 foldedRoot { nextId := 6, data := [] } 2).2.1.data =
      [("second", 1), ("first", 2), ("second", 3), ("fold", 3), ("first", 5),
        ("second", 1), ("fold", 3)] := by
  decide

/-- A walk down elements without rules that stand deeper than the levels that are left fails, and
no rule is executed. -/
theorem visit_nested (hdiv : table.rulesFor "div" = []) {d id : ℕ} {m : Html.Node}
    (hlevels : n ≤ d) (hw : w.suppressed = []) :
    let e : Element := ⟨{ id := id + d, name := "div" }, [Node.nested id d m]⟩
    (visit table n e w).2.2 = some (Stack.exceeded "") ∧
      (visit table n e w).2.1.data = w.data := by
  induction n generalizing d w with
  | zero => exact ⟨rfl, rfl⟩
  | succ n ih =>
    obtain ⟨d, rfl⟩ := Nat.exists_eq_add_of_lt hlevels
    have hbelow := ih (d := n + d) (w := { w with room := n }) (Nat.le_add_right n d) hw
    have hsuppressed : Walk.isSuppressed { w with room := n } (id + (n + d + 1)) = false := by
      simp [Walk.isSuppressed, hw]
    dsimp only at hbelow ⊢
    rw [visit, hdiv, dispatch]
    dsimp only
    rw [hsuppressed, if_neg Bool.false_ne_true, Node.nested, visitAll]
    rcases hv : visit table n ⟨{ id := id + (n + d), name := "div" }, [Node.nested id (n + d) m]⟩
      { w with room := n } with ⟨e', w', _ | t⟩
    · rw [hv] at hbelow
      cases hbelow.1
    · rw [hv] at hbelow
      exact hbelow

/-- A paragraph in elements without rules. -/
def deepRoot (d : ℕ) : Element :=
  ⟨{ id := 1 + d, name := "div" }, [Node.nested 1 d (.element { id := 0, name := "p" } [])]⟩

theorem isNumbered_deepRoot (d : ℕ) : (deepRoot d).IsNumbered := by
  have hids : (deepRoot d).toNode.elements.map (fun e => e.tag.id) =
      (List.range' 1 (d + 1)).reverse ++ [0] := by
    show ((Node.nested 1 (d + 1) _).elements.map fun e => e.tag.id) = _
    rw [Node.numbers_elements_nested]
    rfl
  rw [Element.IsNumbered, hids]
  simp [List.nodup_append, List.nodup_range']
  omega

/-- A rule for paragraphs. -/
def paragraphNote : Rule (List (String × ℕ)) := .note "only" 0 ["p"] true true

theorem run_deepRoot {n d : ℕ} (h : n ≤ d) :
    let run := run (ofRules [paragraphNote]) n (deepRoot d) { nextId := 0, data := [] }
    run.2.2 = some (Stack.exceeded "") ∧ run.2.1.data = [] :=
  visit_nested (by decide) h rfl

/-- With the usual stack a run over a paragraph that stands too deep fails, and the rule for
paragraphs is not executed, although no rule was executed on the elements around it. -/
theorem deep_elements_end_runs :
    (deepRoot Stack.usual.levels).IsNumbered ∧ paragraphNote.IsHarmless ∧
      paragraphNote.NeverFails ∧
      let run := run (ofRules [paragraphNote]) Stack.usual.levels (deepRoot Stack.usual.levels)
        { nextId := 0, data := [] }
      run.2.2 = some (Stack.exceeded "") ∧ run.2.1.data = [] :=
  ⟨isNumbered_deepRoot _, Rule.isHarmless_note _ _ _ _ _, Rule.neverFails_note _ _ _ _ _,
    run_deepRoot le_rfl⟩

end RuleTable

end CodeHighlight
