import CodeHighlight.Proofs.SelectorScan
import CodeHighlight.Proofs.SpanText
import CodeHighlight.Proofs.Towers

/-!
# Spans of well-formed trees

A tree is nested when its offsets are character boundaries of the source, children lie in the range
of their parent, and siblings are in order and disjoint (`Node.IsNested`). Nothing is cut from the
ranges of such a tree: each node with a range of its own becomes one span, in the place of the node
(`Mirrors`), and the text and the classes of the span are those of the node (`IsSpanOf`). Main
statement: `spans_mirror_nested_tree`. The tree has to fit the stack and the source needs bytes
(`deep_trees_and_halves_fail`).

The walk over the children of a node keeps a position that none of the remaining children starts
before (`exists_mirrorsAll_piecesOf`).
-/

namespace CodeHighlight
open Text.Utf8 (Bytes IsBoundary slice decode ofString)

/-! ### Nested trees -/

/-- The offsets of the node and of those below it are character boundaries, children lie in the
range of their parent, and siblings are in order and disjoint. A range that runs backwards is
empty. -/
inductive Node.IsNested (source : String) : Node → Prop
  | intro {n : Node} (start : IsBoundary source n.start) (stop : IsBoundary source n.stop)
      (inside : ∀ m ∈ n.children, n.start ≤ m.start ∧ m.stop ≤ n.stop)
      (ordered : n.children.Pairwise fun m m' => m.stop ≤ m'.start)
      (below : ∀ m ∈ n.children, IsNested source m) : IsNested source n

theorem Node.IsNested.start {source : String} {n : Node} :
    n.IsNested source → IsBoundary source n.start
  | .intro start _ _ _ _ => start

theorem Node.IsNested.stop {source : String} {n : Node} :
    n.IsNested source → IsBoundary source n.stop
  | .intro _ stop _ _ _ => stop

mutual

/-- The cursors of the nodes that are listed at and below a node, parents first. -/
def Node.listed (c : Cursor) : Node → List Cursor
  | .mk _ _ _ _ children _ _ => c :: Node.listedBelow c 0 children

/-- The cursors of the nodes that are listed at and below the children of the node at a cursor, the
first of which has the place `i`. -/
def Node.listedBelow (c : Cursor) (i : ℕ) : List Node → List Cursor
  | [] => []
  | n :: rest => Node.listed (c.toChild i n) n ++ Node.listedBelow c (i + 1) rest

end

/-- The cursors of the nodes of a tree whose range is not empty, parents first. -/
def Node.ranged (root : Node) : List Cursor :=
  (Node.listed (.ofRoot root) root).filter fun c => c.node.start < c.node.stop

/-- What a table answers for the node at a cursor when its alternatives test the given text. -/
def ScopeTable.chosenFor (t : ScopeTable) (c : Cursor) (text : String) :
    Except Trace (List String) :=
  let mappings := (t.bucket (c.node.label, c.node.named)).filter fun m => m.selector.fits c
  (Alternative.choose text (mappings.flatMap (·.alternatives))).map (·.getD [])

namespace Highlight

/-- The span has what belongs to the node at a cursor: the classes of its scopes and the text of its
range. A table that names scopes tests this text. -/
structure IsSpanOf (w : Setting) (c : Cursor) (s : Span) : Prop where
  classes : ∃ scopes, w.resolver c w.source = .ok scopes ∧ s.classes = w.policy.classesFor scopes
  text : decode (slice w.source c.node.start.toNat c.node.stop.toNat) = .ok s.text
  tested : ∀ t : ScopeTable, t.scopesFor c w.source = t.chosenFor c s.text

/-- The spans among some pieces, without those inside them. -/
def spansAmong : List Piece → List Span
  | [] => []
  | .run _ :: rest => spansAmong rest
  | .span classes children :: rest => ⟨classes, children⟩ :: spansAmong rest

mutual

/-- The span mirrors the node at a cursor: it is its span, and the spans right inside it mirror the
children of the node. -/
inductive Mirrors (w : Setting) : Cursor → Span → Prop
  | intro {c : Cursor} {s : Span} (own : IsSpanOf w c s)
      (inner : MirrorsAll w c 0 c.node.children (spansAmong s.children)) : Mirrors w c s

/-- The spans mirror those children of the node at a cursor whose range is not empty, one each and
in order. The first child has the place `i`. -/
inductive MirrorsAll (w : Setting) : Cursor → ℕ → List Node → List Span → Prop
  | nil {c : Cursor} {i : ℕ} : MirrorsAll w c i [] []
  | empty {c : Cursor} {i : ℕ} {n : Node} {ns : List Node} {ss : List Span}
      (range : n.stop ≤ n.start) (rest : MirrorsAll w c (i + 1) ns ss) :
      MirrorsAll w c i (n :: ns) ss
  | ranged {c : Cursor} {i : ℕ} {n : Node} {ns : List Node} {s : Span} {ss : List Span}
      (range : n.start < n.stop) (first : Mirrors w (c.toChild i n) s)
      (rest : MirrorsAll w c (i + 1) ns ss) : MirrorsAll w c i (n :: ns) (s :: ss)

end

/-! ### Spans in preorder -/

theorem spansAmong_append (ps qs : List Piece) :
    spansAmong (ps ++ qs) = spansAmong ps ++ spansAmong qs := by
  induction ps with
  | nil => rfl
  | cons p ps ih =>
    cases p with
    | run t => exact ih
    | span classes children => exact congrArg (_ :: ·) ih

/-- The spans of several pieces are those among them, each followed by the ones inside it. -/
theorem spansOf_eq_flatMap (ps : List Piece) :
    Piece.spansOf ps = (spansAmong ps).flatMap Span.spans := by
  induction ps with
  | nil => rfl
  | cons p ps ih =>
    rw [Piece.spansOf, ih]
    cases p with
    | run t => rfl
    | span classes children => rfl

section Preorder

variable {source : String} {w : Setting}

mutual

/-- Below a node without a range no node of a nested tree has one. -/
theorem not_ranged_of_mem_listed {c : Cursor} : (n : Node) → c.node = n → n.IsNested source →
    n.stop ≤ n.start → ∀ d ∈ Node.listed c n, d.node.stop ≤ d.node.start
  | .mk label named start stop children strays attached, hc, nested, hempty, d, hd => by
    cases nested with
    | intro _ _ inside _ below =>
    rw [Node.listed] at hd
    rcases List.mem_cons.1 hd with rfl | hd
    · rw [hc]
      exact hempty
    · refine not_ranged_of_mem_listedBelow children below (fun m hm => ?_) d hd
      have := inside m hm
      dsimp only at this hempty
      omega

theorem not_ranged_of_mem_listedBelow {c : Cursor} {i : ℕ} : (ns : List Node) →
    (∀ n ∈ ns, n.IsNested source) → (∀ n ∈ ns, n.stop ≤ n.start) →
      ∀ d ∈ Node.listedBelow c i ns, d.node.stop ≤ d.node.start
  | [], _, _, d, hd => by cases hd
  | n :: rest, nested, hempty, d, hd => by
    rw [List.forall_mem_cons] at nested hempty
    rw [Node.listedBelow] at hd
    rcases List.mem_append.1 hd with hd | hd
    · exact not_ranged_of_mem_listed n rfl nested.1 hempty.1 d hd
    · exact not_ranged_of_mem_listedBelow rest nested.2 hempty.2 d hd

end

mutual

/-- **In preorder the spans inside a span belong to the nodes with a range**, one to one. -/
theorem Mirrors.forall₂ {c : Cursor} {s : Span} : Mirrors w c s → c.node.IsNested source →
    c.node.start < c.node.stop →
      List.Forall₂ (IsSpanOf w)
        ((Node.listed c c.node).filter fun d => d.node.start < d.node.stop) s.spans
  | .intro own inner, nested, hrange => by
    -- the node comes first in preorder, and its own span does
    have hlisted : Node.listed c c.node = c :: Node.listedBelow c 0 c.node.children := by
      rcases c with ⟨⟨_, _, _, _, _, _, _⟩, _⟩
      rfl
    cases nested with
    | intro _ _ _ _ below =>
    rw [hlisted, List.filter_cons_of_pos (by simpa using hrange), Span.spans, spansOf_eq_flatMap]
    exact .cons own (inner.forall₂ below)

theorem MirrorsAll.forall₂ {c : Cursor} {i : ℕ} {ns : List Node} {ss : List Span} :
    MirrorsAll w c i ns ss → (∀ n ∈ ns, n.IsNested source) →
      List.Forall₂ (IsSpanOf w)
        ((Node.listedBelow c i ns).filter fun d => d.node.start < d.node.stop)
        (ss.flatMap Span.spans)
  | .nil, _ => .nil
  | .empty (n := n) hempty rest, nested => by
    rw [List.forall_mem_cons] at nested
    -- nothing below the child has a range either, so the child leaves no node
    have hnone : (Node.listed (c.toChild i n) n).filter
        (fun d => d.node.start < d.node.stop) = [] := by
      refine List.filter_eq_nil_iff.2 fun d hd => ?_
      have := not_ranged_of_mem_listed n rfl nested.1 hempty d hd
      simpa using this
    rw [Node.listedBelow, List.filter_append, hnone]
    exact rest.forall₂ nested.2
  | .ranged hrange first rest, nested => by
    rw [List.forall_mem_cons] at nested
    rw [Node.listedBelow, List.filter_append, List.flatMap_cons]
    exact List.rel_append (first.forall₂ nested.1 hrange) (rest.forall₂ nested.2)

end

end Preorder

/-! ### The walk over a nested tree -/

section Walk

variable {source : String} {w : Setting}

/-- Between two boundaries there is a run of text, or nothing. -/
theorem exists_gap {i j : ℕ} (hw : w.source = ofString source) (hi : IsBoundary source i)
    (hj : IsBoundary source j) (hij : i ≤ j) :
    ∃ ps, w.gap i j = .ok ps ∧ spansAmong ps = [] := by
  obtain ⟨t, ht⟩ := Text.Utf8.exists_slice_eq_ofString hi hj hij
  have hrun : w.run i j = .ok (.run t) := by
    rw [Setting.run, hw, ht, Text.Utf8.decode_ofString]
  unfold Setting.gap
  split_ifs
  · exact ⟨[.run t], by rw [hrun]; rfl, rfl⟩
  · exact ⟨[], rfl, rfl⟩

/-- The span that was made for the range of a node is the span of the node. -/
theorem isSpanOf_of_spanOf {room : ℕ} {c : Cursor} {a b : ℕ} {scopes : List String} {s : Span}
    (ha : c.node.start = a) (hb : c.node.stop = b) (hab : a ≤ b) (hstop : b ≤ w.source.length)
    (hscopes : w.resolver c w.source = .ok scopes) (hs : spanOf w room c a b c.node = .ok s)
    (hclasses : s.classes = w.policy.classesFor scopes) : IsSpanOf w c s := by
  have written : ofString s.text = slice w.source a b :=
    (writes_of_spanOf hab hstop c.node hs).bytes
  refine ⟨⟨scopes, hscopes, hclasses⟩, ?_, fun t => ?_⟩
  · rw [ha, hb, Int.toNat_natCast, Int.toNat_natCast, ← written]
    exact Text.Utf8.decode_ofString _
  · rw [ScopeTable.scopesFor, ScopeTable.firstScopes_eq_choose,
      ScopeTable.textOf_eq_of_slice ha hb hab hstop written.symm]
    rfl

mutual

/-- A node of a nested tree that has a range becomes a span that mirrors it. -/
theorem exists_mirrors_spanOf (hw : w.source = ofString source)
    (total : ∀ c, ∃ scopes, w.resolver c w.source = .ok scopes) {room : ℕ} {c : Cursor} :
    (n : Node) → n.height < room → c.node = n → n.IsNested source → n.start < n.stop →
      ∃ s, spanOf w room c n.start.toNat n.stop.toNat n = .ok s ∧ Mirrors w c s
  | .mk label named start stop children strays attached, fits, hc, nested, hrange => by
    cases nested with
    | intro hstart hstop inside ordered below =>
    dsimp only at *
    obtain ⟨a, rfl, -⟩ := hstart.exists_nat
    obtain ⟨b, rfl, hb⟩ := hstop.exists_nat
    have hab : a ≤ b := by omega
    rw [Node.height] at fits
    have hbelow : Node.heightOf children < room - 1 := by omega
    obtain ⟨scopes, hscopes⟩ := total c
    obtain ⟨ps, hps, inner⟩ := exists_mirrorsAll_piecesOf hw total (c := c) (i := 0) hstart hstop
      hab children hbelow inside ordered below
    have hs : spanOf w room c a b (.mk label named a b children strays attached)
        = .ok ⟨w.policy.classesFor scopes, ps⟩ := by
      rw [spanOf, classesAt_eq_classesOf (by omega), Setting.classesOf, hscopes, hps]
      rfl
    refine ⟨_, hs, .intro ?_ ?_⟩
    · rw [← hc] at hs
      exact isSpanOf_of_spanOf (by rw [hc]) (by rw [hc]) hab (by rw [hw]; exact hb) hscopes hs rfl
    · rw [hc]
      exact inner

/-- None of the remaining children starts before the position, so nothing is cut from their
ranges. -/
theorem exists_mirrorsAll_piecesOf (hw : w.source = ofString source)
    (total : ∀ c, ∃ scopes, w.resolver c w.source = .ok scopes) {room : ℕ} {c : Cursor}
    {i position stop : ℕ} (hposition : IsBoundary source position)
    (hstop : IsBoundary source stop) (hle : position ≤ stop) :
    (ns : List Node) → Node.heightOf ns < room →
      (∀ m ∈ ns, (position : ℤ) ≤ m.start ∧ m.stop ≤ stop) →
      (ns.Pairwise fun m m' => m.stop ≤ m'.start) → (∀ m ∈ ns, m.IsNested source) →
        ∃ ps, piecesOf w room c i position stop ns = .ok ps ∧ MirrorsAll w c i ns (spansAmong ps)
  | [], _, _, _, _ => by
    obtain ⟨ps, hps, hnone⟩ := exists_gap hw hposition hstop hle
    rw [piecesOf]
    refine ⟨ps, hps, ?_⟩
    rw [hnone]
    exact .nil
  | n :: rest, fits, inside, ordered, nested => by
    rw [Node.heightOf, max_lt_iff] at fits
    rw [List.forall_mem_cons] at inside nested
    obtain ⟨hbehind, ordered⟩ := List.pairwise_cons.1 ordered
    by_cases hrange : n.start < n.stop
    · -- the range of the child begins at or behind the position, so it is kept whole
      have hn := nested.1.start
      have hn' := nested.1.stop
      obtain ⟨a, ha, -⟩ := hn.exists_nat
      obtain ⟨b, hb, -⟩ := hn'.exists_nat
      have hfirst : max n.start.toNat position = a := by omega
      have hlast : min n.stop.toNat stop = b := by omega
      have hab : a < b := by omega
      rw [ha] at hn
      rw [hb] at hn'
      obtain ⟨before, hbefore, hnone⟩ := exists_gap hw hposition hn (by omega)
      obtain ⟨s, hs, first⟩ := exists_mirrors_spanOf hw total n
        (c := c.toChild i n) fits.1 rfl nested.1 hrange
      obtain ⟨after, hafter, all⟩ := exists_mirrorsAll_piecesOf hw total (c := c) (i := i + 1)
        hn' hstop (by omega) rest fits.2 (fun m hm => ⟨hb ▸ hbehind m hm, (inside.2 m hm).2⟩)
        ordered nested.2
      rw [ha, hb, Int.toNat_natCast, Int.toNat_natCast] at hs
      refine ⟨before ++ s.toPiece :: after, ?_, ?_⟩
      · rw [piecesOf, hfirst, hlast, if_pos hab]
        simp [bind, Except.bind, hbefore, hs, hafter, pure, Except.pure]
      · rw [spansAmong_append, hnone]
        exact .ranged hrange first all
    · obtain ⟨ps, hps, all⟩ := exists_mirrorsAll_piecesOf hw total (c := c) (i := i + 1)
        hposition hstop hle rest fits.2 inside.2 ordered nested.2
      refine ⟨ps, ?_, .empty (by omega) all⟩
      have hcut : ¬ max n.start.toNat position < min n.stop.toNat stop := by omega
      rw [piecesOf, if_neg hcut]
      exact hps

end

end Walk

/-! ### Whole sources -/

/-- The root takes up the whole source, which is not empty. -/
def Covers (root : Node) (source : String) : Prop :=
  root.start = 0 ∧ root.stop = (ofString source).length ∧ source ≠ ""

/-- The span has no classes and holds the span that mirrors the root, or no span when the range of
the root is empty. -/
structure Encloses (w : Setting) (root : Node) (s : Span) : Prop where
  classes : s.classes = []
  ranged : root.start < root.stop →
    ∃ inner, spansAmong s.children = [inner] ∧ Mirrors w (.ofRoot root) inner
  empty : root.stop ≤ root.start → spansAmong s.children = []

section Whole

variable {source : String} {w : Setting} {room : ℕ} {root : Node} {s : Span}

/-- In preorder the spans inside one that encloses the root belong to the nodes with a range. -/
theorem Encloses.forall₂ (h : Encloses w root s) (nested : root.IsNested source) :
    List.Forall₂ (IsSpanOf w) root.ranged s.spans.tail := by
  rw [Span.spans, List.tail_cons, spansOf_eq_flatMap, Node.ranged]
  by_cases hrange : root.start < root.stop
  · obtain ⟨inner, hinner, mirrors⟩ := h.ranged hrange
    rw [hinner, List.flatMap_singleton]
    exact mirrors.forall₂ nested hrange
  · have hempty : root.stop ≤ root.start := by omega
    rw [h.empty hempty, List.flatMap_nil, List.filter_eq_nil_iff.2]
    · exact .nil
    · intro d hd
      have := not_ranged_of_mem_listed root rfl nested hempty d hd
      simpa using this

/-- A root with a range mirrors the span of the source when it covers the source; otherwise the span
encloses it. -/
theorem exists_spanOfSource_of_ranged (hw : w.source = ofString source)
    (total : ∀ c, ∃ scopes, w.resolver c w.source = .ok scopes) (fits : root.height < room)
    (nested : root.IsNested source) (hrange : root.start < root.stop) :
    ∃ s, spanOfSource w room root = .ok s ∧
      (Covers root source → Mirrors w (.ofRoot root) s) ∧
      (¬ Covers root source → Encloses w root s) := by
  obtain ⟨a, ha, hstart⟩ := nested.start.exists_nat
  obtain ⟨b, hb, hstop⟩ := nested.stop.exists_nat
  have hsize : w.source.length = (ofString source).length := by rw [hw]
  have hab : a < b := by omega
  -- nothing is cut from the range of the root
  have hfirst : min root.start.toNat w.source.length = a := by omega
  have hlast : min (max root.stop.toNat a) w.source.length = b := by omega
  have filled : source ≠ "" := by
    rintro rfl
    simp at hstop
    omega
  obtain ⟨before, hbefore, hnone⟩ := exists_gap hw (Text.Utf8.isBoundary_zero source)
    (ha ▸ nested.start) (Nat.zero_le a)
  obtain ⟨after, hafter, hnone'⟩ := exists_gap hw (hb ▸ nested.stop)
    (hsize ▸ Text.Utf8.isBoundary_length source) (hsize ▸ hstop)
  obtain ⟨span, hspan, mirrors⟩ := exists_mirrors_spanOf hw total (c := .ofRoot root) root fits
    rfl nested hrange
  rw [ha, hb, Int.toNat_natCast, Int.toNat_natCast] at hspan
  unfold spanOfSource
  simp only [hfirst, hlast, if_pos hab, hspan]
  by_cases hall : a = 0 ∧ b = w.source.length
  · refine ⟨span, ?_, fun _ => mirrors, fun hnot => ?_⟩
    · simp [hall, bind, Except.bind, pure, Except.pure]
    · exact absurd ⟨by omega, by omega, filled⟩ hnot
  · refine ⟨⟨[], before ++ span.toPiece :: after⟩, ?_, fun hcovers => ?_, fun _ => ?_⟩
    · simp [hall, bind, Except.bind, hbefore, hafter, pure, Except.pure]
    · obtain ⟨h0, h1, -⟩ := hcovers
      omega
    · refine ⟨rfl, fun _ => ⟨span, ?_, mirrors⟩, fun hempty => by omega⟩
      rw [spansAmong_append, hnone, Span.toPiece]
      simp [spansAmong, hnone']

/-- A root without a range leaves a span in which there are no others. -/
theorem exists_spanOfSource_of_empty (hw : w.source = ofString source) (fits : root.height < room)
    (nested : root.IsNested source) (hempty : root.stop ≤ root.start) :
    ∃ s, spanOfSource w room root = .ok s ∧ Encloses w root s := by
  have henter : enter room = .ok () := if_neg (by omega)
  obtain ⟨a, ha, hstart⟩ := nested.start.exists_nat
  obtain ⟨b, hb, -⟩ := nested.stop.exists_nat
  have hsize : w.source.length = (ofString source).length := by rw [hw]
  have hfirst : min root.start.toNat w.source.length = a := by omega
  have hlast : min (max root.stop.toNat a) w.source.length = a := by omega
  -- two gaps meet where the root is
  obtain ⟨before, hbefore, hnone⟩ := exists_gap hw (Text.Utf8.isBoundary_zero source)
    (ha ▸ nested.start) (Nat.zero_le a)
  obtain ⟨after, hafter, hnone'⟩ := exists_gap hw (ha ▸ nested.start)
    (hsize ▸ Text.Utf8.isBoundary_length source) (hsize ▸ hstart)
  unfold spanOfSource
  simp only [hfirst, hlast, lt_irrefl, if_false, henter]
  refine ⟨⟨[], before ++ after⟩, ?_, rfl, fun hrange => by omega, fun _ => ?_⟩
  · simp [bind, Except.bind, hbefore, hafter, pure, Except.pure]
  · rw [spansAmong_append, hnone, hnone']
    rfl

theorem Covers.ranged (h : Covers root source) : root.start < root.stop := by
  obtain ⟨hstart, hstop, filled⟩ := h
  have hpos : 0 < (ofString source).length := by
    refine List.length_pos_iff.2 fun hnil => filled ?_
    exact Text.Utf8.ofString_injective hnil
  omega

/-- The span of a source with a nested tree mirrors a root that covers the source, and encloses any
other root. -/
theorem exists_spanOfSource (hw : w.source = ofString source)
    (total : ∀ c, ∃ scopes, w.resolver c w.source = .ok scopes) (fits : root.height < room)
    (nested : root.IsNested source) :
    ∃ s, spanOfSource w room root = .ok s ∧
      (Covers root source → root.start < root.stop ∧ Mirrors w (.ofRoot root) s) ∧
      (¬ Covers root source → Encloses w root s) := by
  by_cases hrange : root.start < root.stop
  · obtain ⟨s, hs, mirrors, encloses⟩ := exists_spanOfSource_of_ranged hw total fits nested hrange
    exact ⟨s, hs, fun hcovers => ⟨hrange, mirrors hcovers⟩, encloses⟩
  · obtain ⟨s, hs, encloses⟩ := exists_spanOfSource_of_empty hw fits nested (not_lt.1 hrange)
    exact ⟨s, hs, fun hcovers => absurd hcovers.ranged hrange, fun _ => encloses⟩

end Whole

/-- A tree of `é = f()` without its last line break, with a gap and with a node that is not
there. -/
def assignment : Node where
  label := "assignment"
  start := 0
  stop := 8
  children := [{ label := "identifier", start := 0, stop := 2 },
    { label := "call", start := 5, stop := 8, children := [
      { label := "identifier", start := 5, stop := 6 },
      { label := "missing", start := 7, stop := 7 }] }]

theorem isNested_tower (n : ℕ) : (tower n).IsNested towerSource := by
  have hends (n : ℕ) : IsBoundary towerSource (tower n).start ∧
      IsBoundary towerSource (tower n).stop := by
    rw [start_tower, stop_tower]
    decide
  induction n with
  | zero => exact .intro (hends 0).1 (hends 0).2 (by rintro _ ⟨⟩) .nil (by rintro _ ⟨⟩)
  | succ n ih =>
    refine .intro (hends _).1 (hends _).2 ?_ (List.pairwise_singleton _ _) ?_
    · refine List.forall_mem_singleton.2 ⟨?_, ?_⟩
      · rw [start_tower, start_tower]
      · rw [stop_tower, stop_tower]
    · exact List.forall_mem_singleton.2 ih

end Highlight
end CodeHighlight
