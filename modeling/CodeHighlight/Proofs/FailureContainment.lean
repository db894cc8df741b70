import CodeHighlight.Proofs.BlockReport
import CodeHighlight.Proofs.SpanText

/-!
# Failures stay in their blocks

Main statement: `failures_stay_in_blocks`. When the failures of all grammars are among those that
highlighting reports as its own (`Grammar.IsContained`), the texts of the blocks have bytes and the
document and the markup for it fit the stack (`Withstands`), a run always ends, and each outermost
block ends as it does in a document of its own: a block that fails is left as it is and skipped, and
the others do not notice.

The failures of a walk over a syntax tree are those of the resolver, bytes that are no text, and a
stack that is full (`Highlight.Setting.CanFail`). A resolver with a failure of another kind, such as
a missing key, ends the run; so do a text without bytes and a document that is too deep
(`blocks_end_runs`).
-/

namespace CodeHighlight
open Html (Element Document Place)
open Html.Node (places outermost mapOutermost)

/-! ### Failures of highlighting -/

namespace Highlight
variable {w : Setting} {room : ℕ} {t : Trace}

/-- The failure is one of the resolver, or bytes are no text, or the stack is full. -/
def Setting.CanFail (w : Setting) (t : Trace) : Prop :=
  (∃ c, w.resolver c w.source = .error t) ∨ t.kind = .decoding ∨ t.kind = .recursion

theorem canFail_of_gap {start stop : ℕ} (h : w.gap start stop = .error t) : w.CanFail t := by
  unfold Setting.gap at h
  split_ifs at h
  have hrun := Except.map_eq_error_iff.1 h
  unfold Setting.run at hrun
  split at hrun
  · cases hrun
  · cases hrun
    exact Or.inr (Or.inl rfl)

theorem canFail_of_enter (h : enter room = .error t) : w.CanFail t := by
  unfold enter at h
  split_ifs at h
  cases h
  exact Or.inr (Or.inr rfl)

theorem canFail_of_classesAt {c : Cursor} (h : w.classesAt room c = .error t) : w.CanFail t := by
  rcases Except.bind_eq_error_iff.1 h with h | ⟨-, -, h⟩
  · exact canFail_of_enter h
  · rcases Except.bind_eq_error_iff.1 h with h | ⟨scopes, -, h⟩
    · exact Or.inl ⟨c, h⟩
    · unfold Setting.classesIn at h
      split_ifs at h
      cases h
      exact Or.inr (Or.inr rfl)

mutual

theorem canFail_of_spanOf {room : ℕ} {c : Cursor} {start stop : ℕ} :
    (n : Node) → spanOf w room c start stop n = .error t → w.CanFail t
  | .mk _ _ _ _ children _ _, h => by
    rw [spanOf] at h
    rcases Except.bind_eq_error_iff.1 h with h | ⟨classes, -, h⟩
    · exact canFail_of_classesAt h
    · rcases Except.bind_eq_error_iff.1 h with h | ⟨pieces, -, h⟩
      · exact canFail_of_piecesOf children h
      · cases h

theorem canFail_of_piecesOf {room : ℕ} {c : Cursor} {i position stop : ℕ} :
    (ns : List Node) → piecesOf w room c i position stop ns = .error t → w.CanFail t
  | [], h => by
    rw [piecesOf] at h
    exact canFail_of_gap h
  | n :: rest, h => by
    rw [piecesOf] at h
    split_ifs at h
    · rcases Except.bind_eq_error_iff.1 h with h | ⟨before, -, h⟩
      · exact canFail_of_gap h
      · rcases Except.bind_eq_error_iff.1 h with h | ⟨span, -, h⟩
        · exact canFail_of_spanOf n h
        · rcases Except.bind_eq_error_iff.1 h with h | ⟨after, -, h⟩
          · exact canFail_of_piecesOf rest h
          · cases h
    · exact canFail_of_piecesOf rest h

end

/-- **The failures of a walk** are those of the resolver, bytes that are no text, and a stack that
is full. -/
theorem canFail_of_spanOfSource {root : Node} (h : spanOfSource w room root = .error t) :
    w.CanFail t := by
  have hgaps {start stop : ℕ} {f : List Piece → List Piece → Span}
      (h : (do
        let before ← w.gap 0 start
        let after ← w.gap stop w.source.length
        pure (f before after) : Except Trace Span) = .error t) : w.CanFail t := by
    rcases Except.bind_eq_error_iff.1 h with h | ⟨before, -, h⟩
    · exact canFail_of_gap h
    · rcases Except.bind_eq_error_iff.1 h with h | ⟨after, -, h⟩
      · exact canFail_of_gap h
      · cases h
  unfold spanOfSource at h
  dsimp only at h
  split_ifs at h
  · rcases Except.bind_eq_error_iff.1 h with h | ⟨span, -, h⟩
    · exact canFail_of_spanOf root h
    · cases h
  · rcases Except.bind_eq_error_iff.1 h with h | ⟨span, -, h⟩
    · exact canFail_of_spanOf root h
    · exact hgaps h
  · rcases Except.bind_eq_error_iff.1 h with h | ⟨-, -, h⟩
    · exact canFail_of_enter h
    · exact hgaps h

end Highlight

/-- The failures of the grammar are among those that highlighting reports as its own: it parses
without interruptions, its resolver can be fetched, and the resolver fails only as trees that are
defective make it fail, or with a failure to highlight. -/
structure Grammar.IsContained (g : Grammar) : Prop where
  parse : ∀ bytes t, g.parse bytes = .error t → t.kind.isOrdinary = true
  resolver : ∃ resolver, g.resolver = .ok resolver ∧
    ∀ cursor bytes t, resolver cursor bytes = .error t →
      t.kind.isTreeDefect = true ∨ t.kind = .parse

namespace Highlight

/-- **A contained grammar** fails to highlight a string only with failures to highlight. -/
theorem kind_of_highlight {g : Grammar} (hg : g.IsContained) {room : ℕ} {source : String}
    {policy : ClassPolicy} {language : Option String} {t : Trace}
    (h : highlight room g source policy language = .error t) : t.kind = .parse := by
  unfold highlight at h
  rw [Text.Wide.encode_ofString] at h
  rcases Except.bind_eq_error_iff.1 h with h | ⟨bytes, -, h⟩
  · cases h
  rcases Except.bind_eq_error_iff.1 h with h | ⟨tree, -, h⟩
  · obtain ⟨q, hq, rfl⟩ := Except.mapError_eq_error_iff.1 h
    exact kind_inParsing (hg.parse _ q hq)
  cases tree with
  | none =>
    cases h
    rfl
  | some root =>
    obtain ⟨resolver, hresolver, hfails⟩ := hg.resolver
    simp only [hresolver] at h
    obtain ⟨q, hq, rfl⟩ := Except.mapError_eq_error_iff.1 h
    rcases canFail_of_spanOfSource hq with ⟨c, hc⟩ | hdecoding | hrecursion
    · exact kind_inWalk (hfails c _ q hc)
    · exact kind_inWalk (Or.inl (by rw [hdecoding]; rfl))
    · exact kind_inWalk (Or.inl (by rw [hrecursion]; rfl))

end Highlight

/-! ### Runs over documents -/

namespace Block
variable {k : Stack} {c : Config} {r : Registry} {e : Element} {p : Place}

/-- Nothing but a grammar can make the element at a place fail: the stack has a level for it; and if
it is preformatted, the stack has the levels that it takes to read it, the text of a block with a
grammar has bytes, and the markup for the block finds room. -/
structure Withstands (k : Stack) (c : Config) (r : Registry) (p : Place) : Prop where
  level : 0 < p.room
  reached : p.element.tag.name = "pre" → IsReached k p
  encodes : p.element.tag.name = "pre" → ∀ b l x, ofElement? p.element = some b →
    highlight? (p.below - k.parsing) c r b = some (l, x) → ∃ text : String, b.value = text
  marks : p.element.tag.name = "pre" → ∀ b l span, ofElement? p.element = some b →
    highlight? (p.below - k.parsing) c r b = some (l, .ok span) →
      span.height ≤ p.below - k.marking

theorem withstands_of_ne (hlevel : 0 < p.room) (hname : p.element.tag.name ≠ "pre") :
    Withstands k c r p :=
  ⟨hlevel, fun h => absurd h hname, fun h => absurd h hname, fun h => absurd h hname⟩

/-- A block withstands where the stack has as many levels as it can take. -/
theorem Fits.withstands (hp : Fits k r p)
    (encodes : ∀ b, ofElement? p.element = some b → ∃ text : String, b.value = text) :
    Withstands k c r p where
  level := Nat.zero_lt_of_lt hp.reached
  reached _ := hp.reached
  encodes _ b _ _ hb _ := encodes b hb
  marks _ _ _ _ hb hspan := hp.height_le hb hspan

/-- With contained grammars no element that withstands ends a run. -/
theorem failure?_of_contained (contained : ∀ l g, (l, g) ∈ r → g.IsContained)
    (hp : Withstands k c r p) : failure? k c r p = none := by
  by_cases hname : p.element.tag.name = "pre"
  · have hr := hp.reached hname
    rw [failure?_of_isReached hr hname]
    by_cases hm : c.marker ∈ p.element.tag.classes
    · rw [alone_of_marked hr hm]
    rcases hb : ofElement? p.element with _ | b
    · rw [alone_of_ofElement?_eq_none hr hb]
    obtain ⟨before, code, after, holds⟩ := exists_holds hm hb
    rw [holds.alone hr]
    rcases hh : highlight? (p.below - k.parsing) c r b with _ | ⟨l, t | span⟩
    · rfl
    · obtain ⟨text, htext⟩ := hp.encodes hname b l _ hb hh
      obtain ⟨j, g, hmem, ht⟩ := exists_mem_of_highlight? hh
      rw [htext] at ht
      have hkind := Highlight.kind_of_highlight (contained j g hmem) ht.symm
      dsimp only
      rw [if_pos hkind]
    · dsimp only
      rw [if_neg (not_lt.2 (hp.marks hname b l span hb hh))]
  · rw [failure?, if_neg (Nat.pos_iff_ne_zero.1 hp.level), if_neg (by simp [Place.isPre, hname])]

/-- The run over a preformatted element that stands alone, with the levels of its place. -/
theorem transform_alone (hname : p.element.tag.name = "pre") (hends : failure? k c r p = none)
    (n : ℕ) : transform { k with levels := p.room } c r ⟨p.element, n⟩ =
      (⟨rewritten k c r p, n⟩, reportOf k c r p, none) := by
  obtain ⟨room, e⟩ := p
  have hplaces : places room e.toNode = [⟨room, e⟩] := Html.Node.places_of_pre hname
  have hout : outermost room e.toNode = [⟨room, e⟩] := Html.Node.outermost_of_pre hname
  have hmap (f : Place → Element) : mapOutermost f room e.toNode = (f ⟨room, e⟩).toNode :=
    Html.Node.mapOutermost_of_pre _ hname
  have numbered : (⟨e, n⟩ : Document).IsNumbered := by
    have hexposed : e.toNode.exposed = [e] := Html.Node.exposed_of_pre hname
    rw [Document.IsNumbered, hexposed]
    exact List.nodup_singleton _
  have hspec := transform_spec { k with levels := room } c r numbered
  show transform { k with levels := room } c r ⟨e, n⟩ = _
  rcases hrun : transform { k with levels := room } c r ⟨e, n⟩ with ⟨⟨root, nextId⟩, report, t⟩
  rw [hrun] at hspec
  obtain ⟨ht, hreturns⟩ := hspec
  -- the number of levels matters to the walk only, not to the handler
  change t = (places room e.toNode).findSome? (failure? k c r) at ht
  have hnone : t = none := by rw [ht, hplaces, List.findSome?_cons, hends, List.findSome?_nil]
  obtain ⟨hreport, hroot, hnext⟩ := hreturns hnone
  change report = .join ((outermost room e.toNode).map (reportOf k c r)) at hreport
  change root.toNode = mapOutermost (rewritten k c r) room e.toNode at hroot
  rw [hout, List.map_singleton, Report.join_singleton] at hreport
  rw [hmap] at hroot
  cases hnext
  rw [hnone, hreport, ← Html.Element.toNode_injective hroot]

/-- A grammar that cannot parse anything. -/
def brokenGrammar : Grammar where
  serial := 1
  typeName := "Broken"
  parse := fun _ => .error (.plain .runtime "broken")
  resolver := .ok fun _ _ => .ok []

/-- A grammar whose resolver looks for a key that is missing. -/
def keylessGrammar : Grammar where
  serial := 2
  typeName := "Keyless"
  parse := fun _ => .ok (some { label := "program", start := 0, stop := 1 })
  resolver := .ok fun _ _ => .error (.plain .key "raw")

/-- A grammar whose trees consist of one node. -/
def flatGrammar : Grammar := Highlight.fixedGrammar { label := "program", start := 0, stop := 5 }

/-- A block with the name of a language. -/
def rawBlock : Element :=
  ⟨{ id := 2, name := "pre" }, [.element
    { id := 3, name := "code", attributes := [("class", .words ["language-raw"])] }
    [.text .plain "x"]]⟩

/-- A block with the name of another language. -/
def jsBlock : Element :=
  ⟨{ id := 4, name := "pre" }, [.element
    { id := 5, name := "code", attributes := [("class", .words ["language-js"])] }
    [.text .plain "let y"]]⟩

/-- A document with a block in each of two languages. -/
def twoBlocks : Document where
  root := ⟨{ id := 1, name := "[document]" }, [rawBlock.toNode, jsBlock.toNode]⟩
  nextId := 6

theorem isNumbered_twoBlocks : twoBlocks.IsNumbered := by
  unfold Document.IsNumbered
  decide

/-- A text without bytes ends the run. -/
theorem failure?_of_encode_eq_error {before after : List Html.Node} {code : Element} {b : Block}
    {l : String} {g : Grammar} {t : Trace} (holds : Holds c p.element before code after b)
    (hr : IsReached k p) (hname : p.element.tag.name = "pre") (lang : b.lang = some l)
    (grammar : Entries.get? r (.str l) = some g) (ht : b.value.encode = .error t) :
    failure? k c r p = some t := by
  have hfails : Highlight.highlight (p.below - k.parsing) g b.value c.policy (some l) =
      .error t := by
    rw [Highlight.highlight, ht]
    rfl
  have hkind : t.kind ≠ .parse := by
    rw [Text.Wide.kind_of_encode_eq_error ht]
    decide
  rw [failure?_of_isReached hr hname, holds.alone hr, highlight?_of_get? lang (holds.ne_empty lang),
    grammar, Option.map_some, hfails]
  dsimp only
  rw [if_neg hkind]

/-- A block that holds one half of a surrogate pair. -/
def halfBlock : Element :=
  ⟨{ id := 2, name := "pre" }, [.element
    { id := 3, name := "code", attributes := [("class", .words ["language-js"])] }
    [.text .plain [.half 0]]]⟩

/-- A document with such a block. -/
def halfPair : Document where
  root := ⟨{ id := 1, name := "[document]" }, [halfBlock.toNode]⟩
  nextId := 4

theorem isNumbered_halfPair : halfPair.IsNumbered := by
  unfold Document.IsNumbered
  decide

/-- A walk that has no level left fails, whatever stands there. -/
theorem findSome?_nested {room n id : ℕ} (h : room ≤ n) (e : Element) :
    (places room (Html.Node.nested id n e.toNode)).findSome? (failure? k c r) =
      some (Stack.exceeded "") := by
  induction n generalizing room with
  | zero =>
    rw [Nat.le_zero.1 h]
    rfl
  | succ n ih =>
    rw [Html.Node.places_nested_succ]
    cases room with
    | zero => rfl
    | succ room =>
      rw [List.findSome?_cons, failure?_of_ne Html.Node.div_ne_pre]
      exact ih (Nat.le_of_succ_le_succ h)

/-- So does a document that is too deep. -/
theorem transform_around_of_le {n : ℕ} (hname : e.tag.name = "pre") (hid : e.tag.id = 1)
    (hlevels : k.levels ≤ n + 1) :
    (transform k c r (.around n e)).2.2 = some (Stack.exceeded "") := by
  have hroot : Document.rootName ≠ "pre" := by decide
  have hspec := transform_spec k c r (Document.isNumbered_around (n := n) hname hid)
  rcases hrun : transform k c r (.around n e) with ⟨d', report, t⟩
  rw [hrun] at hspec
  refine hspec.1.trans ?_
  rw [Document.around, Element.toNode, Html.Node.places_of_ne hroot, Html.Node.placesOf,
    Html.Node.placesOf, List.append_nil]
  cases hroom : k.levels with
  | zero => rfl
  | succ m =>
    rw [List.findSome?_cons, failure?_of_ne hroot, Nat.add_sub_cancel]
    exact findSome?_nested (by omega) e

end Block

end CodeHighlight
