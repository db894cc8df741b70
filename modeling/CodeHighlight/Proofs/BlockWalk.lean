import CodeHighlight.Block
import CodeHighlight.Proofs.Entries
import CodeHighlight.Proofs.OutermostElements

/-!
# The walk over code blocks

The walk with the rule for code blocks comes to each outermost preformatted element once, in
document order, and never below one. What the handler does with an element depends on the levels of
the stack that are left at its place, but not on what was reported before (`handler_eq`). Hence a
run over a numbered document is the sum of what the handler does with its outermost preformatted
elements (`transform_spec`): it fails with the first failure of a place, which is that of a block or
of a walk that has no level left, and otherwise the reports stand one behind the other and only
these elements are replaced.

What a walk has done when it has come past some of the places is `Passes`; the step is
`visit_of_pre`, the run `visit_spec`.
-/

namespace CodeHighlight
open Html (Element Document Place Tag)
open Html.Node (exposed exposedOf places placesOf outermost outermostOf mapOutermost
  mapOutermostOf)

/-- Two reports, one behind the other. -/
def Report.append (a b : Report) : Report :=
  ⟨a.blocks ++ b.blocks, a.skipped ++ b.skipped, a.log ++ b.log⟩

namespace Report

theorem append_empty (a : Report) : a.append {} = a := by simp [append]

theorem append_assoc (a b c : Report) : (a.append b).append c = a.append (b.append c) := by
  simp [append]

/-- Several reports, one behind the other. -/
def join (rs : List Report) : Report :=
  ⟨rs.flatMap blocks, rs.flatMap skipped, rs.flatMap log⟩

theorem join_singleton (a : Report) : join [a] = a := by simp [join]

theorem join_append (rs qs : List Report) : join (rs ++ qs) = (join rs).append (join qs) := by
  simp [join, append]

end Report

/-- The walk has not marked the element with a number. -/
def Walk.IsUnmarked {σ : Type} (w : Walk σ) (id : ℕ) : Prop :=
  w.isProcessed id = false ∧ w.isSuppressed id = false

namespace Block
variable {k : Stack} {c : Config} {r : Registry} {w w' w'' : Walk Report} {e : Element} {p : Place}
  {ps ps' : List Place} {t : Option Trace}

/-! ### The handler on its own -/

/-- What the handler leaves of the element at a place when nothing was reported before. -/
def alone (k : Stack) (c : Config) (r : Registry) (p : Place) : Handled Report :=
  handler k c r p.element { nextId := 0, room := p.below, data := {} }

/-- What takes the place of an element. -/
def rewritten (k : Stack) (c : Config) (r : Registry) (p : Place) : Element := (alone k c r p).1

/-- What is reported about an element. -/
def reportOf (k : Stack) (c : Config) (r : Registry) (p : Place) : Report :=
  (alone k c r p).2.1.data

/-- The failure at a place that ends the run: no level is left for the element, or the handler
fails. -/
def failure? (k : Stack) (c : Config) (r : Registry) (p : Place) : Option Trace :=
  if p.room = 0 then some (Stack.exceeded "")
  else if p.isPre then (alone k c r p).2.2 else none

/-- What the handler does with an element does not depend on what was reported before. -/
theorem handler_eq (e : Element) (w : Walk Report) :
    handler k c r e w =
      (rewritten k c r ⟨w.room + 1, e⟩,
        { w with data := w.data.append (reportOf k c r ⟨w.room + 1, e⟩) },
        (alone k c r ⟨w.room + 1, e⟩).2.2) := by
  have hbelow : (⟨w.room + 1, e⟩ : Place).below = w.room := rfl
  unfold rewritten reportOf alone
  rw [hbelow]
  unfold handler
  dsimp only
  by_cases hreading : w.room < k.reading
  · simp only [if_pos hreading, Report.append_empty]
  simp only [if_neg hreading]
  by_cases hm : e.tag.classes.contains c.marker = true
  · simp only [hm, if_true, Report.append_empty]
  simp only [if_neg hm]
  rcases ofElement? e with _ | b
  · simp only [Report.append_empty]
  dsimp only
  rcases highlight? (w.room - k.parsing) c r b with _ | ⟨language, t | span⟩
  · simp [Report.append]
  · dsimp only
    split_ifs
    · simp [Report.append]
    · simp only [Report.append_empty]
  · dsimp only
    split_ifs
    · simp only [Report.append_empty]
    · simp [Report.append]

/-! ### Passing places -/

/-- The walk from `w` to `w'` has come past these places and ended with `t`. -/
structure Passes (k : Stack) (c : Config) (r : Registry) (ps : List Place) (w w' : Walk Report)
    (t : Option Trace) : Prop where
  failure : t = ps.findSome? (failure? k c r)
  marks : ∀ id, w.IsUnmarked id → (∀ p ∈ ps, p.element.tag.id ≠ id) → w'.IsUnmarked id
  nextId : w'.nextId = w.nextId
  data : t = none →
    w'.data = w.data.append (.join ((ps.filter Place.isPre).map (reportOf k c r)))

theorem Passes.refl (w : Walk Report) : Passes k c r [] w w none :=
  ⟨rfl, fun _ h _ => h, rfl, fun _ => (Report.append_empty _).symm⟩

/-- The walk goes on behind places without a failure. -/
theorem Passes.trans (h : Passes k c r ps w w' none) (h' : Passes k c r ps' w' w'' t) :
    Passes k c r (ps ++ ps') w w'' t where
  failure := by
    rw [List.findSome?_append, ← h.failure, Option.none_or]
    exact h'.failure
  marks id hw hne :=
    h'.marks id (h.marks id hw fun p hp => hne p (List.mem_append_left _ hp))
      fun p hp => hne p (List.mem_append_right _ hp)
  nextId := h'.nextId.trans h.nextId
  data ht := by
    rw [h'.data ht, h.data rfl, Report.append_assoc, ← Report.join_append, List.filter_append,
      List.map_append]

/-- A failure ends the walk in front of the places behind it. -/
theorem Passes.append_right {t : Trace} (h : Passes k c r ps w w' (some t)) (ps' : List Place) :
    Passes k c r (ps ++ ps') w w' (some t) where
  failure := by
    rw [List.findSome?_append, ← h.failure, Option.some_or]
  marks id hw hne := h.marks id hw fun p hp => hne p (List.mem_append_left _ hp)
  nextId := h.nextId
  data := by rintro ⟨⟩

/-- A failure at the first place ends the walk in front of it. -/
theorem passes_of_failure {t : Trace} (h : failure? k c r p = some t)
    (hprocessed : w'.processed = w.processed) (hsuppressed : w'.suppressed = w.suppressed)
    (hnext : w'.nextId = w.nextId) (ps : List Place) :
    Passes k c r (p :: ps) w w' (some t) where
  failure := by rw [List.findSome?_cons, h]
  marks id hw _ := by
    unfold Walk.IsUnmarked Walk.isProcessed Walk.isSuppressed
    rw [hprocessed, hsuppressed]
    exact hw
  nextId := hnext
  data := by rintro ⟨⟩

/-- The walk goes on behind an element that is not preformatted. -/
theorem Passes.cons (hp : failure? k c r p = none) (hname : p.isPre = false)
    (h : Passes k c r ps w w' t) : Passes k c r (p :: ps) w w' t where
  failure := by rw [List.findSome?_cons, hp, h.failure]
  marks id hw hne := h.marks id hw fun q hq => hne q (List.mem_cons_of_mem _ hq)
  nextId := h.nextId
  data ht := by
    rw [h.data ht, List.filter_cons_of_neg (by rw [hname]; exact Bool.false_ne_true)]

/-- Elements with other numbers than those that are passed stay unmarked. -/
theorem Passes.unmarked {n : ℕ} {m : Html.Node} {xs : List Element}
    (h : Passes k c r (places n m) w w' t)
    (hothers : ∀ a ∈ (exposed m).map (fun x => x.tag.id), ∀ b ∈ xs.map (fun x => x.tag.id), a ≠ b)
    (hw : ∀ x ∈ xs, w.IsUnmarked x.tag.id) : ∀ x ∈ xs, w'.IsUnmarked x.tag.id := by
  intro x hx
  refine h.marks _ (hw x hx) fun p hp => ?_
  exact hothers _ (List.mem_map_of_mem (Html.Node.element_mem_exposed hp)) _
    (List.mem_map_of_mem hx)

/-! ### Steps of the walk -/

theorem rulesFor_pre : (rules k c r).rulesFor "pre" = [rule k c r] := rfl

theorem rulesFor_of_ne {name : String} (h : name ≠ "pre") : (rules k c r).rulesFor name = [] := by
  have hrules : rules k c r = [("pre", [rule k c r])] := rfl
  have hne : ¬(("pre" == name) = true) := fun hb => h (beq_iff_eq.1 hb).symm
  rw [RuleTable.rulesFor, hrules, Entries.get?_cons, if_neg hne]
  rfl

/-- The failure of a preformatted element for which a level is left is that of the handler. -/
theorem failure?_of_pre {n : ℕ} (hname : e.tag.name = "pre") :
    failure? k c r ⟨n + 1, e⟩ = (alone k c r ⟨n + 1, e⟩).2.2 := by
  rw [failure?, if_neg (Nat.succ_ne_zero n), if_pos (by simp [Place.isPre, hname])]

/-- Other elements end no run when a level is left for them. -/
theorem failure?_of_ne {n : ℕ} (hname : e.tag.name ≠ "pre") :
    failure? k c r ⟨n + 1, e⟩ = none := by
  rw [failure?, if_neg (Nat.succ_ne_zero n), if_neg (by simp [Place.isPre, hname])]

/-- The handler is applied to an element that is not marked, which is marked then. -/
theorem dispatch_rule (hname : e.tag.name = "pre") (h : w.isProcessed e.tag.id = false) :
    RuleTable.dispatch e w [rule k c r] =
      let p : Place := ⟨w.room + 1, e⟩
      match failure? k c r p with
      | some t =>
        (rewritten k c r p, { w with data := w.data.append (reportOf k c r p) }, some t)
      | none =>
        (rewritten k c r p,
          ((({ w with data := w.data.append (reportOf k c r p) } : Walk Report).mark
            e.tag.id).suppress e.tag.id), none) := by
  have hrule : (rule k c r).handler e w = _ := handler_eq e w
  rw [← failure?_of_pre hname] at hrule
  rw [RuleTable.dispatch, h, hrule]
  dsimp only
  rcases failure? k c r ⟨w.room + 1, e⟩ with _ | t <;> rfl

/-- A preformatted element is handled once, and the walk does not go below it. -/
theorem visit_of_pre (n : ℕ) (hname : e.tag.name = "pre") (hw : w.IsUnmarked e.tag.id) :
    let (e', w', t) := RuleTable.visit (rules k c r) (n + 1) e w
    Passes k c r [⟨n + 1, e⟩] w w' t ∧ e' = rewritten k c r ⟨n + 1, e⟩ := by
  rw [RuleTable.visit, hname, rulesFor_pre, dispatch_rule (w := { w with room := n }) hname hw.1]
  dsimp only
  rcases hf : failure? k c r ⟨n + 1, e⟩ with _ | t
  · have hsup : Walk.isSuppressed
        ((({ w with room := n, data := w.data.append (reportOf k c r ⟨n + 1, e⟩) } :
          Walk Report).mark e.tag.id).suppress e.tag.id) e.tag.id = true := by
      simp [Walk.isSuppressed, Walk.suppress]
    dsimp only
    rw [if_pos hsup]
    refine ⟨⟨by simp [hf], fun id hid hne => ?_, rfl, fun _ => ?_⟩, rfl⟩
    · have hne : id ≠ e.tag.id := fun h => hne _ (List.mem_singleton.2 rfl) h.symm
      simpa [Walk.IsUnmarked, Walk.isProcessed, Walk.isSuppressed, Walk.mark, Walk.suppress, hne]
        using hid
    · simp [Walk.mark, Walk.suppress, Report.join, Place.isPre, hname]
  · refine ⟨passes_of_failure hf ?_ ?_ ?_ [], rfl⟩ <;> rfl

/-! ### The whole walk -/

/-- What a visit of an element comes to: it passes the places at and below it, and puts others in
the places of the outermost elements. -/
def Visits (k : Stack) (c : Config) (r : Registry) (n : ℕ) : Prop :=
  ∀ e w, ((exposed e.toNode).map fun x => x.tag.id).Nodup →
    (∀ x ∈ exposed e.toNode, w.IsUnmarked x.tag.id) →
    let (e', w', t) := RuleTable.visit (rules k c r) n e w
    Passes k c r (places n e.toNode) w w' t ∧
      (t = none → e'.toNode = mapOutermost (rewritten k c r) n e.toNode)

/-- Nodes are passed one after the other, up to the first failure. -/
theorem Visits.visitAll {n : ℕ} (h : Visits k c r n) {ns : List Html.Node}
    (hnodup : ((exposedOf ns).map fun x => x.tag.id).Nodup)
    (hw : ∀ x ∈ exposedOf ns, w.IsUnmarked x.tag.id) :
    let (ns', w', t) := RuleTable.visitAll (RuleTable.visit (rules k c r) n) w ns
    Passes k c r (placesOf n ns) w w' t ∧
      (t = none → ns' = mapOutermostOf (rewritten k c r) n ns) := by
  induction ns generalizing w with
  | nil => exact ⟨.refl w, fun _ => rfl⟩
  | cons m ns ih =>
    rw [exposedOf, List.map_append, List.nodup_append] at hnodup
    rw [exposedOf, List.forall_mem_append] at hw
    rw [placesOf, mapOutermostOf]
    cases m with
    | text kind s =>
      obtain ⟨hpasses, hnodes⟩ := ih hnodup.2.1 hw.2
      rw [RuleTable.visitAll]
      exact ⟨hpasses, fun ht => by rw [hnodes ht]; rfl⟩
    | element tag children =>
      have hfirst := h ⟨tag, children⟩ w hnodup.1 hw.1
      rw [RuleTable.visitAll]
      rcases hv : RuleTable.visit (rules k c r) n ⟨tag, children⟩ w with ⟨e', w', _ | t⟩
      · rw [hv] at hfirst
        obtain ⟨hpasses, hnode⟩ := hfirst
        -- the marks of the first node are those of its exposed elements, which are others
        obtain ⟨hrestPasses, hrestNodes⟩ := ih hnodup.2.1 (hpasses.unmarked hnodup.2.2 hw.2)
        refine ⟨hpasses.trans hrestPasses, fun ht => ?_⟩
        show e'.toNode :: _ = _
        rw [hnode rfl, hrestNodes ht]
        rfl
      · rw [hv] at hfirst
        exact ⟨hfirst.1.append_right _, by rintro ⟨⟩⟩

/-- **The walk passes the places**, as far as the levels that are left allow. -/
theorem visit_spec (n : ℕ) : Visits k c r n := by
  induction n with
  | zero =>
    intro e w _ _
    rw [RuleTable.visit, Element.toNode, places]
    exact ⟨passes_of_failure rfl rfl rfl rfl _, by rintro ⟨⟩⟩
  | succ n ih =>
    intro e w hnodup hw
    have hroot : w.IsUnmarked e.tag.id := hw e List.mem_cons_self
    by_cases hname : e.tag.name = "pre"
    · have hplaces : places (n + 1) e.toNode = [⟨n + 1, e⟩] := Html.Node.places_of_pre hname
      have hmap : mapOutermost (rewritten k c r) (n + 1) e.toNode =
          (rewritten k c r ⟨n + 1, e⟩).toNode :=
        Html.Node.mapOutermost_of_pre _ hname
      have hvisit := visit_of_pre (k := k) (c := c) (r := r) n hname hroot
      rw [hplaces, hmap]
      exact ⟨hvisit.1, fun _ => congrArg Element.toNode hvisit.2⟩
    · rw [Element.toNode, Html.Node.exposed_of_ne hname] at hnodup hw
      obtain ⟨hpasses, hnodes⟩ := ih.visitAll (w := { w with room := n })
        (List.nodup_cons.1 hnodup).2 fun x hx => hw x (List.mem_cons_of_mem _ hx)
      have hsup : Walk.isSuppressed { w with room := n } e.tag.id = false := hroot.2
      rw [RuleTable.visit, rulesFor_of_ne hname, RuleTable.dispatch]
      dsimp only
      rw [hsup, if_neg Bool.false_ne_true]
      refine ⟨?_, fun ht => ?_⟩
      · rw [Element.toNode, Html.Node.places_of_ne hname, Nat.add_sub_cancel]
        refine .cons (failure?_of_ne hname) (by simp [Place.isPre, hname]) ?_
        exact ⟨hpasses.failure, hpasses.marks, hpasses.nextId, hpasses.data⟩
      · rw [Element.toNode, Element.toNode, Html.Node.mapOutermost_of_ne _ hname,
          Nat.add_sub_cancel, hnodes ht]

/-- **A run over a numbered document** fails with the first failure of a place: no level of the
stack is left for an element, or a preformatted element fails. When there is none, its report is
what is reported about the outermost preformatted elements, in document order, and nothing but these
elements is replaced. -/
theorem transform_spec (k : Stack) (c : Config) (r : Registry) {d : Document}
    (hd : d.IsNumbered) :
    let (d', report, t) := transform k c r d
    t = (places k.levels d.root.toNode).findSome? (failure? k c r) ∧
      (t = none →
        report = .join ((outermost k.levels d.root.toNode).map (reportOf k c r)) ∧
        d'.root.toNode = mapOutermost (rewritten k c r) k.levels d.root.toNode ∧
        d'.nextId = d.nextId) := by
  have hfresh (x : Element) : (({ nextId := d.nextId, data := {} } : Walk Report)).IsUnmarked
      x.tag.id := ⟨rfl, rfl⟩
  obtain ⟨hpasses, hnode⟩ := visit_spec (k := k) (c := c) (r := r) k.levels d.root
    { nextId := d.nextId, data := {} } hd fun x _ => hfresh x
  exact ⟨hpasses.failure, fun ht => ⟨hpasses.data ht, hnode ht, hpasses.nextId⟩⟩

/-- When a run ends, no place fails. -/
theorem failure?_eq_none_of_transform {d d' : Document} {report : Report} (hd : d.IsNumbered)
    (ends : transform k c r d = (d', report, none)) :
    ∀ p ∈ places k.levels d.root.toNode, failure? k c r p = none := by
  have hspec := transform_spec k c r hd
  rw [ends] at hspec
  exact List.findSome?_eq_none_iff.1 hspec.1.symm

end Block

end CodeHighlight
