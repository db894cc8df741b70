import CodeHighlight.Proofs.Layout
import CodeHighlight.Proofs.OutermostElements
import CodeHighlight.Proofs.WideTexts

/-!
# Trees that are deep

A tower is a syntax tree with one node on each level (`Highlight.tower`). Whether it fits the stack
can be said exactly: the walk needs a level for each node, and one more where classes are found for
scopes (`highlight_tower`). In the same way an element can stand as deep in a document as one likes
(`Html.Node.nested`), which takes the levels of the elements around it away from it
(`outermost_nested`).
-/

namespace CodeHighlight

namespace Highlight
open Text (Wide)

/-- One node inside the other, all of them with the first byte as their range. -/
def tower : ℕ → Node
  | 0 => { label := "node", start := 0, stop := 1 }
  | n + 1 => { label := "node", start := 0, stop := 1, children := [tower n] }

theorem height_tower (n : ℕ) : (tower n).height = n + 1 := by
  induction n with
  | zero => rfl
  | succ n ih => rw [tower, Node.height, Node.heightOf, Node.heightOf, ih, Nat.max_zero]

/-- The source that towers are made for. -/
def towerSource : String := "x"

/-- To find the classes of a node takes so many levels. -/
structure Setting.Needs (w : Setting) (low : ℕ) : Prop where
  enough : ∀ room c, low ≤ room → ∃ classes, w.classesAt room c = .ok classes
  short : ∀ room c, room < low → ∃ doing, w.classesAt room c = .error (Stack.exceeded doing)

variable {w : Setting} {low room n : ℕ}

/-- One level is enough where there are no scopes. -/
theorem needs_one (h : ∀ c, w.resolver c w.source = .ok []) : w.Needs 1 where
  enough room c hroom := by
    refine ⟨w.policy.classesFor [], ?_⟩
    rw [Setting.classesAt, enter, if_neg (by omega), h]
    exact if_neg (by simp)
  short room c hroom := by
    refine ⟨" in comparison", ?_⟩
    rw [Setting.classesAt, enter, if_pos (by omega)]
    rfl

/-- A node with scopes takes two levels. -/
theorem needs_two (h : ∀ c, ∃ s scopes, w.resolver c w.source = .ok (s :: scopes)) :
    w.Needs 2 where
  enough room c hroom := by
    obtain ⟨s, scopes, hs⟩ := h c
    refine ⟨w.policy.classesFor (s :: scopes), ?_⟩
    rw [Setting.classesAt, enter, if_neg (by omega), hs]
    exact if_neg (by simp [show ¬room ≤ 1 by omega])
  short room c hroom := by
    by_cases hzero : room = 0
    · refine ⟨" in comparison", ?_⟩
      rw [Setting.classesAt, enter, if_pos hzero]
      rfl
    · obtain ⟨s, scopes, hs⟩ := h c
      refine ⟨"", ?_⟩
      rw [Setting.classesAt, enter, if_neg hzero, hs]
      exact if_pos (by simp [show room ≤ 1 by omega])

theorem start_tower (n : ℕ) : (tower n).start = 0 := by cases n <;> rfl

theorem stop_tower (n : ℕ) : (tower n).stop = 1 := by cases n <;> rfl

/-- The children of a node of a tower: there is one, with the range of the node. -/
theorem piecesOf_tower (c : Cursor) :
    piecesOf w room c 0 0 1 [tower n] =
      (spanOf w room (c.toChild 0 (tower n)) 0 1 (tower n)).map fun s => [s.toPiece] := by
  rw [piecesOf, start_tower, stop_tower, if_pos (by decide), piecesOf]
  show (do
    let span ← spanOf w room (c.toChild 0 (tower n)) 0 1 (tower n)
    pure [span.toPiece] : Except Trace (List Piece)) = _
  cases spanOf w room (c.toChild 0 (tower n)) 0 1 (tower n) <;> rfl

/-- **A tower fits the stack** when a level is left for each of its nodes and the lowest one finds
its classes. Otherwise the walk fails. -/
theorem spanOf_tower (needs : w.Needs low) (hlow : 0 < low)
    (hsource : w.source = Text.Utf8.ofString towerSource) (n room : ℕ) (c : Cursor) :
    (n + low ≤ room → ∃ s, spanOf w room c 0 1 (tower n) = .ok s) ∧
      (room < n + low →
        ∃ doing, spanOf w room c 0 1 (tower n) = .error (Stack.exceeded doing)) := by
  induction n generalizing room c with
  | zero =>
    rw [tower, spanOf]
    constructor
    · intro hroom
      obtain ⟨classes, hclasses⟩ := needs.enough room c (by omega)
      have hgap : w.gap 0 1 = .ok [.run "x"] := by
        unfold Setting.gap Setting.run
        rw [hsource]
        cbv
      rw [hclasses, piecesOf, hgap]
      exact ⟨_, rfl⟩
    · intro hroom
      obtain ⟨doing, hfails⟩ := needs.short room c (by omega)
      rw [hfails]
      exact ⟨doing, rfl⟩
  | succ n ih =>
    rw [tower, spanOf, piecesOf_tower]
    obtain ⟨hfits, hfull⟩ := ih (room - 1) (c.toChild 0 (tower n))
    constructor
    · intro hroom
      obtain ⟨classes, hclasses⟩ := needs.enough room c (by omega)
      obtain ⟨s, hs⟩ := hfits (by omega)
      rw [hclasses, hs]
      exact ⟨_, rfl⟩
    · intro hroom
      by_cases hshort : room < low
      · obtain ⟨doing, hfails⟩ := needs.short room c hshort
        rw [hfails]
        exact ⟨doing, rfl⟩
      · obtain ⟨classes, hclasses⟩ := needs.enough room c (by omega)
        obtain ⟨doing, hfails⟩ := hfull (by omega)
        rw [hclasses, hfails]
        exact ⟨doing, rfl⟩

/-- The range of a tower is the whole source. -/
theorem spanOfSource_tower (hsource : w.source = Text.Utf8.ofString towerSource) :
    spanOfSource w room (tower n) = spanOf w room (.ofRoot (tower n)) 0 1 (tower n) := by
  have hsize : w.source.length = 1 := by
    rw [hsource]
    cbv
  unfold spanOfSource
  rw [start_tower, stop_tower, hsize]
  simp

/-- **Highlighting with a tower** succeeds or fails with the stack, by the number of levels. -/
theorem highlight_tower {g : Grammar} {resolver : Resolver} {policy : ClassPolicy}
    {language : Option String}
    (hparse : g.parse (Text.Utf8.ofString towerSource) = .ok (some (tower n)))
    (hresolver : g.resolver = .ok resolver)
    (needs : Setting.Needs ⟨resolver, Text.Utf8.ofString towerSource, policy⟩ low)
    (hlow : 0 < low) :
    (n + low ≤ room → ∃ s, highlight room g towerSource policy language = .ok s) ∧
      (room < n + low → ∃ doing, highlight room g towerSource policy language =
        .error (inWalk language (Stack.exceeded doing))) := by
  have hrun : highlight room g towerSource policy language =
      (spanOf ⟨resolver, Text.Utf8.ofString towerSource, policy⟩ room (.ofRoot (tower n)) 0 1
        (tower n)).mapError (inWalk language) := by
    rw [highlight_eq_mapError hparse hresolver, spanOfSource_tower rfl]
  obtain ⟨hfits, hfull⟩ := spanOf_tower needs hlow rfl n room (.ofRoot (tower n))
  rw [hrun]
  constructor
  · intro hroom
    obtain ⟨s, hs⟩ := hfits hroom
    exact ⟨s, by rw [hs]; rfl⟩
  · intro hroom
    obtain ⟨doing, hfails⟩ := hfull hroom
    exact ⟨doing, by rw [hfails]; rfl⟩

/-- A tower for a grammar with one tree, which takes labels for scopes. -/
theorem highlight_fixedGrammar_tower (n room : ℕ) (policy : ClassPolicy)
    (language : Option String) :
    (n + 2 ≤ room →
      ∃ s, highlight room (fixedGrammar (tower n)) towerSource policy language = .ok s) ∧
    (room < n + 2 → ∃ doing, highlight room (fixedGrammar (tower n)) towerSource policy language =
      .error (inWalk language (Stack.exceeded doing))) :=
  highlight_tower (g := fixedGrammar (tower n)) rfl rfl (needs_two fun _ => ⟨_, _, rfl⟩) two_pos

end Highlight

/-! ### Elements that stand deep -/

namespace Html.Node

/-- A node inside so many elements, numbered from the inside, the first of them with `id`. -/
def nested (id : ℕ) : ℕ → Node → Node
  | 0, m => m
  | n + 1, m => .element { id := id + n, name := "div" } [nested id n m]

variable {room n id : ℕ} {m : Node}

theorem div_ne_pre : "div" ≠ "pre" := by decide

theorem places_nested_succ :
    places room (nested id (n + 1) m) =
      ⟨room, ⟨{ id := id + n, name := "div" }, [nested id n m]⟩⟩ ::
        places (room - 1) (nested id n m) := by
  rw [nested, places_of_ne div_ne_pre, placesOf, placesOf, List.append_nil]

/-- An element that stands deep has as many levels less. -/
theorem outermost_nested : outermost (room + n) (nested id n m) = outermost room m := by
  induction n with
  | zero => rfl
  | succ n ih =>
    rw [nested, outermost_of_ne div_ne_pre, outermostOf_cons, ← Nat.add_assoc,
      Nat.add_sub_cancel, ih]
    exact List.append_nil _

/-- The other places are those of the elements around it. -/
theorem mem_places_nested {p : Place} (h : p ∈ places (room + n) (nested id n m)) :
    p ∈ places room m ∨ p.element.tag.name = "div" ∧ room < p.room := by
  induction n with
  | zero => exact Or.inl h
  | succ n ih =>
    rw [places_nested_succ] at h
    rcases List.mem_cons.1 h with rfl | h
    · refine Or.inr ⟨rfl, ?_⟩
      show room < room + (n + 1)
      omega
    · exact ih h

/-- The numbers of the elements around a node. -/
theorem numbers_elements_nested : (elements (nested id n m)).map (fun e => e.tag.id) =
    (List.range' id n).reverse ++ (elements m).map fun e => e.tag.id := by
  induction n with
  | zero => rfl
  | succ n ih =>
    rw [nested, elements, elementsOf, elementsOf, List.append_nil, List.map_cons, ih,
      List.range'_1_concat, List.reverse_append]
    rfl

/-- The numbers of those of them that are exposed: all are. -/
theorem numbers_nested : (exposed (nested id n m)).map (fun e => e.tag.id) =
    (List.range' id n).reverse ++ (exposed m).map fun e => e.tag.id := by
  induction n with
  | zero => rfl
  | succ n ih =>
    rw [nested, exposed_of_ne div_ne_pre, exposedOf, exposedOf, List.append_nil, List.map_cons, ih,
      List.range'_1_concat, List.reverse_append]
    rfl

end Html.Node

namespace Html

/-- A document with an element inside so many others. -/
def Document.around (n : ℕ) (e : Element) : Document where
  root := ⟨{ id := 0, name := rootName }, [Node.nested 3 n e.toNode]⟩
  nextId := n + 3

theorem Document.isNumbered_around {n : ℕ} {e : Element} (hname : e.tag.name = "pre")
    (hid : e.tag.id = 1) : (around n e).IsNumbered := by
  have hexposed : e.toNode.exposed = [e] := Node.exposed_of_pre hname
  have hroot : (around n e).root.toNode.exposed.map (fun x => x.tag.id) =
      0 :: ((List.range' 3 n).reverse ++ [1]) := by
    have hne : rootName ≠ "pre" := by decide
    rw [around, Element.toNode, Node.exposed_of_ne hne, Node.exposedOf, Node.exposedOf,
      List.append_nil, List.map_cons, Node.numbers_nested, hexposed, List.map_singleton, hid]
  rw [IsNumbered, hroot]
  simp [List.nodup_append, List.nodup_range', List.mem_range'_1]
  omega

end Html

end CodeHighlight
