import CodeHighlight.Html.Reader
import CodeHighlight.Proofs.Outcomes

/-!
# Outermost preformatted elements

An element is exposed when it stands in no preformatted element (`Node.exposed`). A walk that goes
down the tree comes to it with the levels of the stack that are left at its depth, which is its
`Place`. The preformatted ones among the exposed elements are the outermost ones (`Node.outermost`);
a tree is rewritten at these places only by `Node.mapOutermost`.

In a numbered tree the elements are told apart by their numbers, in a numbered document those that
are exposed. All documents that are read are numbered trees (`Document.isNumbered_root_of_ofText`):
the reader gives every element a number of its own, and it only moves elements (`Reading.IsFresh`).
-/

namespace CodeHighlight.Html

theorem Element.toNode_injective : Function.Injective Element.toNode := by
  rintro ⟨tag, children⟩ ⟨tag', children'⟩ h
  cases h
  rfl

/-- An element that a walk comes to, and the levels that the walk has left then, the one of the
element included. -/
structure Place where
  room : ℕ
  element : Element

/-- The element is preformatted. -/
def Place.isPre (p : Place) : Bool := p.element.tag.name = "pre"

/-- The levels that are left below the element. -/
def Place.below (p : Place) : ℕ := p.room - 1

namespace Node

/-! ### Places in a tree -/

mutual

/-- The elements at and below a node that stand in no preformatted element, outer ones first. -/
def exposed : Node → List Element
  | .element tag children =>
    ⟨tag, children⟩ :: if tag.name = "pre" then [] else exposedOf children
  | .text _ _ => []

/-- The elements at and below several nodes that stand in no preformatted element. -/
def exposedOf : List Node → List Element
  | [] => []
  | n :: rest => exposed n ++ exposedOf rest

end

variable {tag : Tag} {children : List Node}

theorem exposed_of_pre (h : tag.name = "pre") :
    exposed (.element tag children) = [⟨tag, children⟩] := by rw [exposed, if_pos h]

theorem exposed_of_ne (h : tag.name ≠ "pre") :
    exposed (.element tag children) = ⟨tag, children⟩ :: exposedOf children := by
  rw [exposed, if_neg h]

mutual

/-- The places of the exposed elements at and below a node, for a walk that has so many levels left
when it comes to the node. -/
def places (n : ℕ) : Node → List Place
  | .element tag children =>
    ⟨n, ⟨tag, children⟩⟩ :: if tag.name = "pre" then [] else placesOf (n - 1) children
  | .text _ _ => []

/-- The places of the exposed elements at and below several nodes. -/
def placesOf (n : ℕ) : List Node → List Place
  | [] => []
  | m :: rest => places n m ++ placesOf n rest

end

/-- The places of the preformatted elements at and below a node that stand in no other one, in
document order. -/
def outermost (n : ℕ) (m : Node) : List Place := (places n m).filter Place.isPre

/-- The places of the preformatted elements at and below several nodes that stand in no other
one. -/
def outermostOf (n : ℕ) (ms : List Node) : List Place := (placesOf n ms).filter Place.isPre

mutual

/-- A node with other elements in the places of the outermost preformatted ones. -/
def mapOutermost (f : Place → Element) (n : ℕ) : Node → Node
  | .element tag children =>
    if tag.name = "pre" then (f ⟨n, ⟨tag, children⟩⟩).toNode
    else .element tag (mapOutermostOf f (n - 1) children)
  | .text kind s => .text kind s

/-- Nodes with other elements in the places of the outermost preformatted ones. -/
def mapOutermostOf (f : Place → Element) (n : ℕ) : List Node → List Node
  | [] => []
  | m :: rest => mapOutermost f n m :: mapOutermostOf f n rest

end

variable {n : ℕ} {f g : Place → Element}

theorem places_of_pre (h : tag.name = "pre") :
    places n (.element tag children) = [⟨n, ⟨tag, children⟩⟩] := by rw [places, if_pos h]

theorem places_of_ne (h : tag.name ≠ "pre") :
    places n (.element tag children) = ⟨n, ⟨tag, children⟩⟩ :: placesOf (n - 1) children := by
  rw [places, if_neg h]

mutual

/-- The places are those of the exposed elements. -/
theorem map_element_places (n : ℕ) : (m : Node) → (places n m).map Place.element = exposed m
  | .element tag children => by
    by_cases hname : tag.name = "pre"
    · rw [places_of_pre hname, exposed_of_pre hname, List.map_singleton]
    · rw [places_of_ne hname, exposed_of_ne hname, List.map_cons,
        map_element_placesOf (n - 1) children]
  | .text _ _ => rfl

theorem map_element_placesOf (n : ℕ) : (ms : List Node) →
    (placesOf n ms).map Place.element = exposedOf ms
  | [] => rfl
  | m :: rest => by
    rw [placesOf, exposedOf, List.map_append, map_element_places n m, map_element_placesOf n rest]

end

theorem element_mem_exposed {m : Node} {p : Place} (h : p ∈ places n m) : p.element ∈ exposed m :=
  map_element_places n m ▸ List.mem_map_of_mem h

theorem element_mem_exposedOf {ms : List Node} {p : Place} (h : p ∈ placesOf n ms) :
    p.element ∈ exposedOf ms :=
  map_element_placesOf n ms ▸ List.mem_map_of_mem h

theorem outermost_of_pre (h : tag.name = "pre") :
    outermost n (.element tag children) = [⟨n, ⟨tag, children⟩⟩] := by
  rw [outermost, places_of_pre h]
  simp [Place.isPre, h]

theorem outermost_of_ne (h : tag.name ≠ "pre") :
    outermost n (.element tag children) = outermostOf (n - 1) children := by
  rw [outermost, places_of_ne h]
  simp [Place.isPre, h, outermostOf]

theorem outermostOf_cons (m : Node) (ms : List Node) :
    outermostOf n (m :: ms) = outermost n m ++ outermostOf n ms := by
  rw [outermostOf, placesOf, List.filter_append]
  rfl

theorem mapOutermost_of_pre (f : Place → Element) (h : tag.name = "pre") :
    mapOutermost f n (.element tag children) = (f ⟨n, ⟨tag, children⟩⟩).toNode := by
  rw [mapOutermost, if_pos h]

theorem mapOutermost_of_ne (f : Place → Element) (h : tag.name ≠ "pre") :
    mapOutermost f n (.element tag children) =
      .element tag (mapOutermostOf f (n - 1) children) := by
  rw [mapOutermost, if_neg h]

theorem mem_places_of_mem_outermost {m : Node} {p : Place} (h : p ∈ outermost n m) :
    p ∈ places n m := List.mem_of_mem_filter h

theorem isPre_of_mem_outermost {m : Node} {p : Place} (h : p ∈ outermost n m) :
    p.element.tag.name = "pre" := by
  simpa [Place.isPre] using (List.mem_filter.1 h).2

mutual

/-- Only what becomes of the outermost elements matters. -/
theorem mapOutermost_congr {n : ℕ} :
    {m : Node} → (∀ p ∈ outermost n m, f p = g p) → mapOutermost f n m = mapOutermost g n m
  | .element tag children, h => by
    by_cases hname : tag.name = "pre"
    · rw [mapOutermost_of_pre f hname, mapOutermost_of_pre g hname]
      rw [outermost_of_pre hname] at h
      rw [h _ (List.mem_singleton.2 rfl)]
    · rw [mapOutermost_of_ne f hname, mapOutermost_of_ne g hname]
      rw [outermost_of_ne hname] at h
      rw [mapOutermostOf_congr h]
  | .text _ _, _ => rfl

theorem mapOutermostOf_congr {n : ℕ} :
    {ms : List Node} → (∀ p ∈ outermostOf n ms, f p = g p) →
      mapOutermostOf f n ms = mapOutermostOf g n ms
  | [], _ => rfl
  | m :: rest, h => by
    rw [outermostOf_cons, List.forall_mem_append] at h
    rw [mapOutermostOf, mapOutermostOf, mapOutermost_congr h.1, mapOutermostOf_congr h.2]

end

mutual

/-- The exposed elements are some of the elements, in the same order. -/
theorem exposed_sublist : (n : Node) → (exposed n).Sublist (elements n)
  | .element tag children => by
    rw [exposed, elements]
    refine List.Sublist.cons_cons _ ?_
    split_ifs
    · exact List.nil_sublist _
    · exact exposedOf_sublist children
  | .text _ _ => List.Sublist.refl _

theorem exposedOf_sublist : (ns : List Node) → (exposedOf ns).Sublist (elementsOf ns)
  | [] => List.Sublist.refl _
  | n :: rest => by
    rw [exposedOf, elementsOf]
    exact (exposed_sublist n).append (exposedOf_sublist rest)

end

theorem elementsOf_append (ns ms : List Node) :
    elementsOf (ns ++ ms) = elementsOf ns ++ elementsOf ms := by
  induction ns with
  | nil => rfl
  | cons n ns ih => rw [List.cons_append, elementsOf, elementsOf, ih, List.append_assoc]

theorem elementsOf_reverse_perm (ns : List Node) :
    (elementsOf ns.reverse).Perm (elementsOf ns) := by
  induction ns with
  | nil => exact List.Perm.refl _
  | cons n ns ih =>
    rw [List.reverse_cons, elementsOf_append, elementsOf]
    refine (List.perm_append_comm).trans ?_
    rw [elementsOf, elementsOf, List.append_nil]
    exact ih.append_left _

end Node

/-! ### Numbers -/

/-- The elements of a tree have different numbers. -/
def Element.IsNumbered (root : Element) : Prop :=
  ((Node.elements root.toNode).map fun e => e.tag.id).Nodup

/-- The elements of a document that stand in no preformatted element have different numbers. -/
def Document.IsNumbered (d : Document) : Prop :=
  ((Node.exposed d.root.toNode).map fun e => e.tag.id).Nodup

theorem Element.IsNumbered.document {d : Document} (h : d.root.IsNumbered) : d.IsNumbered :=
  h.sublist ((Node.exposed_sublist _).map _)

/-- The numbers at and below an open element. -/
def Open.numbers (o : Open) : List ℕ :=
  o.tag.id :: (Node.elementsOf o.children).map fun e => e.tag.id

/-- An element that is closed brings its numbers to the element around it. -/
theorem Open.numbers_close (i o : Open) :
    (Open.numbers ⟨o.tag, .element i.tag i.children.reverse :: o.children⟩).Perm
      (i.numbers ++ o.numbers) := by
  have hclosed : (Node.elements (.element i.tag i.children.reverse)).map (fun e => e.tag.id) =
      i.tag.id :: (Node.elementsOf i.children.reverse).map fun e => e.tag.id := by
    rw [Node.elements, List.map_cons]
  have hinner : ((Node.elements (.element i.tag i.children.reverse)).map fun e => e.tag.id).Perm
      i.numbers := by
    rw [hclosed]
    exact ((Node.elementsOf_reverse_perm _).map _).cons _
  show (o.tag.id :: (Node.elementsOf (_ :: o.children)).map fun e => e.tag.id).Perm
    (i.numbers ++ o.tag.id :: (Node.elementsOf o.children).map fun e => e.tag.id)
  rw [Node.elementsOf, List.map_append]
  exact ((hinner.append_right _).cons _).trans List.perm_middle.symm

namespace Reading
variable {r : Reading}

/-- The numbers of all elements that have been read. -/
def numbers (r : Reading) : List ℕ := (r.innermost :: r.outer).flatMap Open.numbers

/-- The numbers that have been given are different, and the next one is not among them. -/
structure IsFresh (r : Reading) : Prop where
  nodup : r.numbers.Nodup
  lt : ∀ i ∈ r.numbers, i < r.nextId

theorem isFresh_start : IsFresh start := by
  refine ⟨List.nodup_singleton _, fun i hi => ?_⟩
  rw [List.mem_singleton.1 hi]
  exact Nat.one_lt_two

/-- Only the numbers and the next number matter. -/
theorem IsFresh.of_perm {q : Reading} (h : r.IsFresh) (hperm : q.numbers.Perm r.numbers)
    (hnext : q.nextId = r.nextId) : q.IsFresh :=
  ⟨hperm.nodup_iff.2 h.nodup, fun i hi => by
    rw [hnext]
    exact h.lt i (hperm.mem_iff.1 hi)⟩

theorem IsFresh.endText (h : r.IsFresh) (kind : TextKind) : (r.endText kind).IsFresh := by
  unfold Reading.endText
  split_ifs
  · exact h
  · exact h.of_perm (List.Perm.refl _) rfl

theorem IsFresh.flush (h : r.IsFresh) : r.flush.IsFresh := h.endText _

theorem IsFresh.closeOne (h : r.IsFresh) : r.closeOne.IsFresh := by
  obtain ⟨innermost, outer, pieces, voids, nextId⟩ := r
  cases outer with
  | nil => exact h
  | cons o outer =>
    refine h.of_perm ?_ rfl
    show (Open.numbers ⟨o.tag, _ :: o.children⟩ ++ outer.flatMap Open.numbers).Perm
      (innermost.numbers ++ (o.numbers ++ outer.flatMap Open.numbers))
    rw [← List.append_assoc]
    exact (Open.numbers_close innermost o).append_right _

theorem IsFresh.close (h : r.IsFresh) (n : ℕ) : (r.close n).IsFresh := by
  induction n generalizing r with
  | zero => exact h
  | succ n ih => exact ih h.closeOne

theorem IsFresh.closeTo (h : r.IsFresh) (name : String) : (r.closeTo name).IsFresh := by
  unfold Reading.closeTo
  split
  · exact h.close _
  · exact h

theorem IsFresh.endTag (h : r.IsFresh) (name : String) : (r.endTag name).IsFresh := by
  unfold Reading.endTag
  split_ifs
  · exact h.of_perm (List.Perm.refl _) rfl
  · exact h.flush.closeTo name

theorem IsFresh.startTag (h : r.IsFresh) (name : String) (attributes : List (String × String)) :
    (r.startTag name attributes).IsFresh := by
  have hf := h.flush
  have hnew : r.flush.nextId ∉ r.flush.numbers := fun hm => absurd (hf.lt _ hm) (lt_irrefl _)
  refine ⟨List.nodup_cons.2 ⟨hnew, hf.nodup⟩, fun i hi => ?_⟩
  rcases List.mem_cons.1 hi with rfl | hi
  · exact Nat.lt_succ_self _
  · exact Nat.lt_succ_of_lt (hf.lt i hi)

/-- **A token keeps numbers apart.** -/
theorem IsFresh.step (h : r.IsFresh) (t : Token) : (r.step t).IsFresh := by
  cases t with
  | startTag name attributes selfClosing =>
    have hs := h.startTag name attributes
    unfold Reading.step
    dsimp only
    split_ifs
    · exact hs.endTag name
    · exact (hs.closeTo name).of_perm (List.Perm.refl _) rfl
    · exact hs
  | endTag name => exact h.endTag name
  | text s => exact h.of_perm (List.Perm.refl _) rfl
  | special kind s =>
    have hs : IsFresh { r.flush with pieces := [s] } := h.flush.of_perm (List.Perm.refl _) rfl
    exact hs.endText kind

theorem IsFresh.foldl (h : r.IsFresh) (ts : List Token) : (ts.foldl Reading.step r).IsFresh := by
  induction ts generalizing r with
  | nil => exact h
  | cons t ts ih => exact ih (h.step t)

theorem IsFresh.finish (h : r.IsFresh) : r.finish.root.IsNumbered := by
  have hc := (h.flush.close r.flush.outer.length).nodup
  set q := r.flush.close r.flush.outer.length
  -- what is left open when all tokens are read is the root
  have hroot : q.innermost.numbers.Nodup := hc.sublist (List.sublist_append_left _ _)
  have hperm : ((Node.elements (.element q.innermost.tag q.innermost.children.reverse)).map
      fun e => e.tag.id).Perm q.innermost.numbers := by
    rw [Node.elements, List.map_cons]
    exact ((Node.elementsOf_reverse_perm _).map _).cons _
  exact hperm.nodup_iff.2 hroot

end Reading

/-- **All documents that are read are numbered trees.** -/
theorem Document.isNumbered_root_of_ofText {s : String} {d : Document}
    (h : Document.ofText s = .ok d) : d.root.IsNumbered := by
  obtain ⟨tokens, _, hd⟩ := Except.bind_eq_ok_iff.1 h
  cases hd
  exact (Reading.isFresh_start.foldl tokens).finish

theorem Document.isNumbered_of_ofText {s : String} {d : Document}
    (h : Document.ofText s = .ok d) : d.IsNumbered :=
  (isNumbered_root_of_ofText h).document

end CodeHighlight.Html
