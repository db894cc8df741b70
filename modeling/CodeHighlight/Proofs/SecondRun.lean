import CodeHighlight.Proofs.BlockReplacement
import CodeHighlight.Proofs.FailureContainment

/-!
# A second run

Main statement: `second_run_changes_nothing`. A run over the document that a run has left ends too,
changes nothing, highlights nothing, and reports the same skipped blocks and diagnostics.

A block that was highlighted carries the marker, so that the second run passes it; what was not
highlighted is as it was before and meets the same fate (`Fate.again`). The outermost preformatted
elements of the document that was left are what the first run has put in the places of the outermost
ones, with the same numbers (`outermost_mapOutermost`, `numbers_mapOutermost`).
-/

namespace CodeHighlight

/-- The place with another element. -/
def Html.Place.put (f : Html.Place → Html.Element) (p : Html.Place) : Html.Place := ⟨p.room, f p⟩

namespace Html.Node
variable {f g : Place → Element}

/-- What is put in the places of preformatted elements is preformatted and keeps their numbers. -/
def KeepsPlaces (f : Place → Element) : Prop :=
  ∀ p, (f p).tag.id = p.element.tag.id ∧ (f p).tag.name = p.element.tag.name

theorem KeepsPlaces.isPre (keeps : KeepsPlaces f) {p : Place} (h : p.element.tag.name = "pre") :
    (f p).tag.name = "pre" := by
  rw [(keeps p).2, h]

mutual

/-- The outermost elements are the places that are rewritten. -/
theorem outermost_mapOutermost (keeps : KeepsPlaces f) {n : ℕ} :
    (m : Node) → outermost n (mapOutermost f n m) = (outermost n m).map (Place.put f)
  | .element tag children => by
    by_cases hname : tag.name = "pre"
    · have hf := keeps.isPre (p := ⟨n, ⟨tag, children⟩⟩) hname
      rw [mapOutermost_of_pre f hname, outermost_of_pre hname, Element.toNode, outermost_of_pre hf]
      rfl
    · rw [mapOutermost_of_ne f hname, outermost_of_ne hname, outermost_of_ne hname,
        outermostOf_mapOutermostOf keeps children]
  | .text _ _ => rfl

theorem outermostOf_mapOutermostOf (keeps : KeepsPlaces f) {n : ℕ} : (ms : List Node) →
    outermostOf n (mapOutermostOf f n ms) = (outermostOf n ms).map (Place.put f)
  | [] => rfl
  | m :: rest => by
    rw [mapOutermostOf, outermostOf_cons, outermostOf_cons, outermost_mapOutermost keeps m,
      outermostOf_mapOutermostOf keeps rest, List.map_append]

end

mutual

/-- The other places are those of elements with the same names, and as many levels are left
there. -/
theorem mem_places_mapOutermost (keeps : KeepsPlaces f) {n : ℕ} {q : Place} : (m : Node) →
    q ∈ places n (mapOutermost f n m) → q.isPre = false →
      ∃ p ∈ places n m, p.room = q.room ∧ p.isPre = false
  | .element tag children, hq, hother => by
    by_cases hname : tag.name = "pre"
    · have hf := keeps.isPre (p := ⟨n, ⟨tag, children⟩⟩) hname
      rw [mapOutermost_of_pre f hname, Element.toNode, places_of_pre hf] at hq
      rw [List.mem_singleton.1 hq] at hother
      simp [Place.isPre, hf] at hother
    · rw [mapOutermost_of_ne f hname, places_of_ne hname] at hq
      rw [places_of_ne hname]
      rcases List.mem_cons.1 hq with rfl | hq
      · exact ⟨_, List.mem_cons_self, rfl, by simpa [Place.isPre] using hname⟩
      · obtain ⟨p, hp, hsame⟩ := mem_placesOf_mapOutermostOf keeps children hq hother
        exact ⟨p, List.mem_cons_of_mem _ hp, hsame⟩
  | .text _ _, hq, _ => by cases hq

theorem mem_placesOf_mapOutermostOf (keeps : KeepsPlaces f) {n : ℕ} {q : Place} :
    (ms : List Node) → q ∈ placesOf n (mapOutermostOf f n ms) → q.isPre = false →
      ∃ p ∈ placesOf n ms, p.room = q.room ∧ p.isPre = false
  | [], hq, _ => by cases hq
  | m :: rest, hq, hother => by
    rw [mapOutermostOf, placesOf] at hq
    rw [placesOf]
    rcases List.mem_append.1 hq with hq | hq
    · obtain ⟨p, hp, hsame⟩ := mem_places_mapOutermost keeps m hq hother
      exact ⟨p, List.mem_append_left _ hp, hsame⟩
    · obtain ⟨p, hp, hsame⟩ := mem_placesOf_mapOutermostOf keeps rest hq hother
      exact ⟨p, List.mem_append_right _ hp, hsame⟩

end

mutual

/-- The exposed elements keep their numbers. -/
theorem numbers_mapOutermost (keeps : KeepsPlaces f) {n : ℕ} : (m : Node) →
    (exposed (mapOutermost f n m)).map (fun e => e.tag.id) = (exposed m).map fun e => e.tag.id
  | .element tag children => by
    by_cases hname : tag.name = "pre"
    · have hf := keeps.isPre (p := ⟨n, ⟨tag, children⟩⟩) hname
      rw [mapOutermost_of_pre f hname, exposed_of_pre hname, Element.toNode, exposed_of_pre hf,
        List.map_singleton, List.map_singleton, (keeps _).1]
    · rw [mapOutermost_of_ne f hname, exposed_of_ne hname, exposed_of_ne hname, List.map_cons,
        List.map_cons, numbers_mapOutermostOf keeps children]
  | .text _ _ => rfl

theorem numbers_mapOutermostOf (keeps : KeepsPlaces f) {n : ℕ} : (ms : List Node) →
    (exposedOf (mapOutermostOf f n ms)).map (fun e => e.tag.id) =
      (exposedOf ms).map fun e => e.tag.id
  | [] => rfl
  | m :: rest => by
    rw [mapOutermostOf, exposedOf, exposedOf, List.map_append, List.map_append,
      numbers_mapOutermost keeps m, numbers_mapOutermostOf keeps rest]

end

mutual

/-- Rewriting twice is rewriting once with both functions. -/
theorem mapOutermost_mapOutermost (keeps : KeepsPlaces f) {n : ℕ} : (m : Node) →
    mapOutermost g n (mapOutermost f n m) = mapOutermost (fun p => g (p.put f)) n m
  | .element tag children => by
    by_cases hname : tag.name = "pre"
    · have hf := keeps.isPre (p := ⟨n, ⟨tag, children⟩⟩) hname
      rw [mapOutermost_of_pre f hname, mapOutermost_of_pre _ hname, Element.toNode,
        mapOutermost_of_pre g hf]
      rfl
    · rw [mapOutermost_of_ne f hname, mapOutermost_of_ne _ hname, mapOutermost_of_ne _ hname,
        mapOutermostOf_mapOutermostOf keeps children]
  | .text _ _ => rfl

theorem mapOutermostOf_mapOutermostOf (keeps : KeepsPlaces f) {n : ℕ} : (ms : List Node) →
    mapOutermostOf g n (mapOutermostOf f n ms) = mapOutermostOf (fun p => g (p.put f)) n ms
  | [] => rfl
  | m :: rest => by
    rw [mapOutermostOf, mapOutermostOf, mapOutermostOf, mapOutermost_mapOutermost keeps m,
      mapOutermostOf_mapOutermostOf keeps rest]

end

end Html.Node

open Html (Element Document Place Tag)
open Html.Node (places outermost mapOutermost KeepsPlaces)

/-- The report without the highlighted blocks. -/
def Report.unlit (q : Report) : Report := { q with blocks := [] }

theorem Report.unlit_join (qs : List Report) : (join qs).unlit = join (qs.map unlit) := by
  have hblocks : (qs.map unlit).flatMap blocks = [] := by simp [unlit]
  unfold join
  rw [hblocks, List.flatMap_map, List.flatMap_map]
  rfl

namespace Block
variable {k : Stack} {c : Config} {r : Registry} {e' : Element} {p : Place} {q : Report}

/-! ### The second time -/

theorem classes_setClasses (t : Tag) (classes : List String) :
    (t.setClasses classes).classes = classes := by
  rw [Tag.classes, Tag.attribute?_setClasses, if_pos rfl]
  rfl

/-- **What becomes of an element meets its fate without being highlighted again**: it was
highlighted and carries the marker, or it is as it was before. -/
theorem Fate.again (fate : Fate k c r p (e', q)) : Fate k c r ⟨p.room, e'⟩ (e', q.unlit) := by
  cases fate with
  | passed h => exact .passed h
  | unknown holds absent => exact .unknown holds absent
  | defective holds lang grammar fails kind => exact .defective holds lang grammar fails kind
  | highlighted holds lang grammar succeeds marks =>
    refine .passed (Or.inl ?_)
    rw [classes_setClasses]
    exact List.mem_cons_self

/-- The handler leaves an element its number and its name. -/
theorem keepsPlaces_rewritten : KeepsPlaces (rewritten k c r) := by
  intro p
  unfold rewritten alone handler
  split_ifs
  · exact ⟨rfl, rfl⟩
  · exact ⟨rfl, rfl⟩
  rcases ofElement? p.element with _ | b
  · exact ⟨rfl, rfl⟩
  dsimp only
  rcases highlight? (p.below - k.parsing) c r b with _ | ⟨l, t | span⟩
  · exact ⟨rfl, rfl⟩
  · dsimp only
    split_ifs <;> exact ⟨rfl, rfl⟩
  · dsimp only
    split_ifs <;> exact ⟨rfl, rfl⟩

/-- An element that is not preformatted fails by the levels that are left, whatever it is. -/
theorem failure?_congr {p q : Place} (hroom : p.room = q.room) (hp : p.isPre = false)
    (hq : q.isPre = false) : failure? k c r p = failure? k c r q := by
  rw [failure?, failure?, hroom, hp, hq]
  simp

/-- **A second run changes nothing.** Whatever the configuration and the registry are, when a run
over a numbered document ends, a run over the document that it has left ends as well, leaves that
document as it is, highlights no block, and reports the same skipped blocks and the same diagnostics
in the same order. -/
theorem second_run_changes_nothing (k : Stack) (c : Config) (r : Registry) (d d' : Document)
    (report : Report) (numbered : d.IsNumbered) (ends : transform k c r d = (d', report, none)) :
    transform k c r d' = (d', { report with blocks := [] }, none) := by
  have hnone := failure?_eq_none_of_transform numbered ends
  have hspec := transform_spec k c r numbered
  rw [ends] at hspec
  obtain ⟨hreport, hroot, -⟩ := hspec.2 rfl
  have hplaces : outermost k.levels d'.root.toNode =
      (outermost k.levels d.root.toNode).map (Place.put (rewritten k c r)) := by
    rw [hroot]
    exact Html.Node.outermost_mapOutermost keepsPlaces_rewritten _
  have numbered' : d'.IsNumbered := by
    unfold Document.IsNumbered at numbered ⊢
    rw [hroot, Html.Node.numbers_mapOutermost keepsPlaces_rewritten]
    exact numbered
  -- each outermost element of the document that is left is left as it is
  have hreached (p : Place) (hp : p ∈ outermost k.levels d.root.toNode) : IsReached k p :=
    isReached_of_failure?_eq_none (Html.Node.isPre_of_mem_outermost hp)
      (hnone p (Html.Node.mem_places_of_mem_outermost hp))
  have hagain (p : Place) (hp : p ∈ outermost k.levels d.root.toNode) :
      Fate k c r (p.put (rewritten k c r)) (rewritten k c r p, (reportOf k c r p).unlit) :=
    (fate_of_failure?_eq_none (Html.Node.isPre_of_mem_outermost hp)
      (hnone p (Html.Node.mem_places_of_mem_outermost hp))).again
  have hspec' := transform_spec k c r numbered'
  rcases hrun : transform k c r d' with ⟨⟨root, nextId⟩, report', t⟩
  rw [hrun] at hspec'
  obtain ⟨ht, hreturns'⟩ := hspec'
  have hends : t = none := by
    refine ht.trans (List.findSome?_eq_none_iff.2 fun q hq => ?_)
    by_cases hpre : q.isPre = true
    · have hmem : q ∈ outermost k.levels d'.root.toNode := List.mem_filter.2 ⟨hq, hpre⟩
      rw [hplaces] at hmem
      obtain ⟨p, hp, rfl⟩ := List.mem_map.1 hmem
      refine (hagain p hp).failure?_eq_none (hreached p hp) ?_
      exact keepsPlaces_rewritten.isPre (Html.Node.isPre_of_mem_outermost hp)
    · rw [Bool.not_eq_true] at hpre
      rw [hroot] at hq
      obtain ⟨p, hp, hroom, hother⟩ :=
        Html.Node.mem_places_mapOutermost keepsPlaces_rewritten _ hq hpre
      rw [← failure?_congr hroom hother hpre]
      exact hnone p hp
  obtain ⟨hreport', hroot', hnext⟩ := hreturns' hends
  have hsame : report' = { report with blocks := [] } := by
    show report' = report.unlit
    rw [hreport', hreport, Report.unlit_join, hplaces, List.map_map, List.map_map]
    refine congrArg Report.join (List.map_congr_left fun p hp => ?_)
    exact (congrArg Prod.snd ((hagain p hp).eq (hreached p hp))).symm
  have hleft : root = d'.root := by
    apply Html.Element.toNode_injective
    show root.toNode = d'.root.toNode
    rw [hroot', hroot, Html.Node.mapOutermost_mapOutermost keepsPlaces_rewritten]
    exact Html.Node.mapOutermost_congr fun p hp =>
      (congrArg Prod.fst ((hagain p hp).eq (hreached p hp))).symm
  rw [hends, hsame, hleft]
  cases hnext
  rfl

/-- After a run that has highlighted one block and skipped another one, the second run skips the
same block again. -/
theorem second_run_changes_nothing_twoBlocks :
    let r : Registry := [(.str "raw", brokenGrammar), (.str "js", flatGrammar)]
    twoBlocks.IsNumbered ∧ ∃ d' report, transform .usual {} r twoBlocks = (d', report, none) ∧
      report.blocks.length = 1 ∧ report.skipped.length = 1 ∧ report.log.length = 2 ∧
      transform .usual {} r d' = (d', { report with blocks := [] }, none) := by
  intro r
  rcases hrun : transform .usual {} r twoBlocks with ⟨d', report, t⟩
  have hends : (transform .usual {} r twoBlocks).2.2 = none := by cbv
  have hcount : (transform .usual {} r twoBlocks).2.1.blocks.length = 1 ∧
      (transform .usual {} r twoBlocks).2.1.skipped.length = 1 ∧
      (transform .usual {} r twoBlocks).2.1.log.length = 2 := by
    cbv
  rw [hrun] at hends hcount
  subst hends
  exact ⟨isNumbered_twoBlocks, d', report, rfl, hcount.1, hcount.2.1, hcount.2.2,
    second_run_changes_nothing .usual {} r twoBlocks d' report isNumbered_twoBlocks hrun⟩

end Block

end CodeHighlight
