import CodeHighlight.Highlight
import CodeHighlight.Proofs.Utf8
import CodeHighlight.Proofs.WideTexts

/-!
# The text of highlighted spans

Highlighting never loses, repeats or moves text, whatever the offsets of the syntax tree are. The
range of every node is cut to what its parent has left, so the pieces made for a range write exactly
the bytes of that range (`Writes`), and they do so without empty runs and empty spans. The walk over
the children of a node keeps this with a position that only moves forward (`writes_of_piecesOf`).
-/

namespace CodeHighlight.Highlight
open Text (Wide)
open Text.Utf8 (Bytes slice ofString)

/-! ### Slices -/

section Slices

variable {bs : Bytes} {i j k : ℕ}

@[simp] theorem slice_self : slice bs i i = [] := by simp [slice]

/-- Slices that meet make up the slice around them. -/
theorem slice_append (hij : i ≤ j) (hjk : j ≤ k) :
    slice bs i j ++ slice bs j k = slice bs i k := by
  have hk : k - i = (j - i) + (k - j) := by omega
  have hj : j = i + (j - i) := by omega
  simp only [slice]
  rw [hk, List.take_add, List.drop_drop, ← hj]

theorem slice_ne_nil (hij : i < j) (hj : j ≤ bs.length) : slice bs i j ≠ [] := by
  intro h
  have hl := congrArg List.length h
  simp only [slice, List.length_take, List.length_drop, List.length_nil] at hl
  omega

theorem slice_all : slice bs 0 bs.length = bs := by simp [slice]

end Slices

/-! ### What pieces write -/

/-- The text of several pieces. -/
def textOf (ps : List Piece) : String := String.join (Piece.runsOf ps)

/-- The pieces write the bytes, and neither a run nor a span among them is empty. -/
structure Writes (ps : List Piece) (bs : Bytes) : Prop where
  bytes : ofString (textOf ps) = bs
  runs : ∀ t ∈ Piece.runsOf ps, t ≠ ""
  spans : ∀ s ∈ Piece.spansOf ps, s.text ≠ ""

section Writes

variable {ps qs : List Piece} {bs cs : Bytes}

theorem runsOf_append : Piece.runsOf (ps ++ qs) = Piece.runsOf ps ++ Piece.runsOf qs := by
  induction ps with
  | nil => rfl
  | cons p ps ih => rw [List.cons_append, Piece.runsOf, Piece.runsOf, ih, List.append_assoc]

theorem spansOf_append : Piece.spansOf (ps ++ qs) = Piece.spansOf ps ++ Piece.spansOf qs := by
  induction ps with
  | nil => rfl
  | cons p ps ih => rw [List.cons_append, Piece.spansOf, Piece.spansOf, ih, List.append_assoc]

theorem textOf_append : textOf (ps ++ qs) = textOf ps ++ textOf qs := by
  rw [textOf, runsOf_append, String.join_append]; rfl

theorem Writes.nil : Writes [] [] where
  bytes := rfl
  runs := by simp [Piece.runsOf]
  spans := by simp [Piece.spansOf]

theorem Writes.append (hp : Writes ps bs) (hq : Writes qs cs) : Writes (ps ++ qs) (bs ++ cs) where
  bytes := by rw [textOf_append, Text.Utf8.ofString_append, hp.bytes, hq.bytes]
  runs := by
    rw [runsOf_append]
    exact List.forall_mem_append.2 ⟨hp.runs, hq.runs⟩
  spans := by
    rw [spansOf_append]
    exact List.forall_mem_append.2 ⟨hp.spans, hq.spans⟩

/-- The text of pieces that write something is not empty. -/
theorem Writes.text_ne_empty (h : Writes ps bs) (hb : bs ≠ []) : textOf ps ≠ "" := by
  intro he
  apply hb
  rw [← h.bytes, he, Text.Utf8.ofString_empty]

theorem Writes.span {s : Span} (h : Writes s.children bs) (hb : bs ≠ []) :
    Writes [s.toPiece] bs := by
  have hr : Piece.runsOf [s.toPiece] = Piece.runsOf s.children := by
    simp [Piece.runsOf, Piece.runs, Span.toPiece]
  have hs : Piece.spansOf [s.toPiece] = s :: Piece.spansOf s.children := by
    simp [Piece.spansOf, Piece.spans, Span.toPiece]
  refine ⟨?_, ?_, ?_⟩
  · rw [textOf, hr]; exact h.bytes
  · rw [hr]; exact h.runs
  · rw [hs]
    exact List.forall_mem_cons.2 ⟨h.text_ne_empty hb, h.spans⟩

theorem Writes.run {t : String} (ht : ofString t = bs) (hb : bs ≠ []) : Writes [.run t] bs where
  bytes := by simpa [textOf, Piece.runsOf, Piece.runs, String.join] using ht
  runs := by
    have : t ≠ "" := fun he => hb (by rw [← ht, he, Text.Utf8.ofString_empty])
    simpa [Piece.runsOf, Piece.runs] using this
  spans := by simp [Piece.spansOf, Piece.spans]

end Writes

/-! ### The walk -/

variable {w : Setting}

theorem writes_of_gap {start stop : ℕ} {ps : List Piece} (hle : start ≤ stop)
    (hstop : stop ≤ w.source.length) (h : w.gap start stop = .ok ps) :
    Writes ps (slice w.source start stop) := by
  unfold Setting.gap at h
  split_ifs at h with hlt
  · obtain ⟨p, hp, rfl⟩ := Except.map_eq_ok_iff.1 h
    unfold Setting.run at hp
    split at hp
    · next t ht =>
      cases hp
      exact Writes.run (Text.Utf8.ofString_of_decode ht) (slice_ne_nil hlt hstop)
    · cases hp
  · cases h
    obtain rfl : start = stop := by omega
    rw [slice_self]
    exact Writes.nil

mutual

/-- The span of a node writes the range that it was given. -/
theorem writes_of_spanOf {room : ℕ} {c : Cursor} {start stop : ℕ} {s : Span} (hle : start ≤ stop)
    (hstop : stop ≤ w.source.length) :
    (n : Node) → spanOf w room c start stop n = .ok s →
      Writes s.children (slice w.source start stop)
  | .mk _ _ _ _ children _ _, h => by
    rw [spanOf] at h
    obtain ⟨classes, -, h⟩ := Except.bind_eq_ok_iff.1 h
    obtain ⟨pieces, hp, h⟩ := Except.bind_eq_ok_iff.1 h
    cases h
    exact writes_of_piecesOf hle hstop children hp

/-- The pieces for the remaining children of a node write what is left of its range. -/
theorem writes_of_piecesOf {room : ℕ} {c : Cursor} {i position stop : ℕ} {ps : List Piece}
    (hle : position ≤ stop) (hstop : stop ≤ w.source.length) :
    (ns : List Node) → piecesOf w room c i position stop ns = .ok ps →
      Writes ps (slice w.source position stop)
  | [], h => by
    rw [piecesOf] at h
    exact writes_of_gap hle hstop h
  | n :: rest, h => by
    rw [piecesOf] at h
    split_ifs at h with hlt
    · -- the child has a range: what lies before it, its span, and what lies behind it
      obtain ⟨before, hb, h⟩ := Except.bind_eq_ok_iff.1 h
      obtain ⟨span, hs, h⟩ := Except.bind_eq_ok_iff.1 h
      obtain ⟨after, ha, h⟩ := Except.bind_eq_ok_iff.1 h
      cases h
      have hfirst : position ≤ max n.start.toNat position := le_max_right _ _
      have hlast : min n.stop.toNat stop ≤ stop := min_le_right _ _
      have wb := writes_of_gap hfirst (by omega) hb
      have ws := writes_of_spanOf hlt.le (hlast.trans hstop) n hs
      have wa := writes_of_piecesOf hlast hstop rest ha
      have ws' := ws.span (slice_ne_nil hlt (hlast.trans hstop))
      have all := wb.append (ws'.append wa)
      rwa [slice_append hlt.le hlast, slice_append hfirst (by omega)] at all
    · exact writes_of_piecesOf hle hstop rest h

end

/-- The span of a source writes the source. -/
theorem writes_of_spanOfSource {room : ℕ} {root : Node} {s : Span}
    (h : spanOfSource w room root = .ok s) : Writes s.children w.source := by
  unfold spanOfSource at h
  simp only at h
  set size := w.source.length with hsize
  set start := min root.start.toNat size with hstart
  set stop := min (max root.stop.toNat start) size with hstop
  have h0 : start ≤ stop := by omega
  have h1 : stop ≤ size := by omega
  split_ifs at h with hlt hall
  · -- the root covers the source
    obtain ⟨span, hs, h⟩ := Except.bind_eq_ok_iff.1 h
    cases h
    have ws := writes_of_spanOf h0 h1 root hs
    simp only [Bool.and_eq_true, decide_eq_true_eq] at hall
    rwa [hall.1, hall.2, hsize, slice_all] at ws
  · -- the root covers a part of it
    obtain ⟨span, hs, h⟩ := Except.bind_eq_ok_iff.1 h
    obtain ⟨before, hb, h⟩ := Except.bind_eq_ok_iff.1 h
    obtain ⟨after, ha, h⟩ := Except.bind_eq_ok_iff.1 h
    cases h
    have ws := (writes_of_spanOf h0 h1 root hs).span (slice_ne_nil hlt h1)
    have wb := writes_of_gap (Nat.zero_le _) (by omega) hb
    have wa := writes_of_gap h1 le_rfl ha
    have all := wb.append (ws.append wa)
    rwa [slice_append h0 h1, slice_append (Nat.zero_le _) (by omega), slice_all] at all
  · -- the root has no range
    obtain ⟨-, -, h⟩ := Except.bind_eq_ok_iff.1 h
    obtain ⟨before, hb, h⟩ := Except.bind_eq_ok_iff.1 h
    obtain ⟨after, ha, h⟩ := Except.bind_eq_ok_iff.1 h
    cases h
    have heq : start = stop := by omega
    have wb := writes_of_gap (Nat.zero_le _) (by omega) hb
    have wa := writes_of_gap h1 le_rfl ha
    have all := wb.append wa
    rwa [heq, slice_append (Nat.zero_le _) h1, slice_all] at all

/-- A string with a syntax tree is highlighted by the walk over the tree. -/
theorem highlight_eq_mapError {room : ℕ} {g : Grammar} {text : String} {policy : ClassPolicy}
    {language : Option String} {root : Node} {resolver : Resolver}
    (parses : g.parse (ofString text) = .ok (some root)) (resolves : g.resolver = .ok resolver) :
    highlight room g text policy language =
      (spanOfSource ⟨resolver, ofString text, policy⟩ room root).mapError (inWalk language) := by
  unfold highlight
  rw [Wide.encode_ofString]
  dsimp only [bind, Except.bind]
  rw [parses, resolves]
  rfl

/-- What fails in parsing is reported as a failure to highlight. -/
theorem kind_inParsing {language : Option String} {t : Trace} (h : t.kind.isOrdinary = true) :
    (inParsing language t).kind = .parse := by
  unfold inParsing
  split_ifs with hp
  · simpa [h] using hp
  · exact Trace.kind_raiseFrom _ _

/-- So is what a tree that is defective makes fail. -/
theorem kind_inWalk {language : Option String} {t : Trace}
    (h : t.kind.isTreeDefect = true ∨ t.kind = .parse) : (inWalk language t).kind = .parse := by
  unfold inWalk
  split_ifs with hd
  · exact Trace.kind_raiseFrom _ _
  · exact h.resolve_left hd

section Sources

variable {room : ℕ} {g : Grammar} {source : Wide} {policy : ClassPolicy} {language : Option String}
  {s : Span}

/-- A highlighted source has bytes, and its span writes them. -/
theorem exists_writes_of_highlight (h : highlight room g source policy language = .ok s) :
    ∃ text : String, source = text ∧ Writes s.children (ofString text) := by
  obtain ⟨bytes, hbytes, h⟩ := Except.bind_eq_ok_iff.1 h
  obtain ⟨text, rfl, rfl⟩ := Wide.encode_eq_ok_iff.1 hbytes
  obtain ⟨tree, -, h⟩ := Except.bind_eq_ok_iff.1 h
  cases tree with
  | none => cases h
  | some root =>
    obtain ⟨resolver, -, h⟩ := Except.bind_eq_ok_iff.1 h
    exact ⟨text, rfl, writes_of_spanOfSource (Except.mapError_eq_ok_iff.1 h)⟩

theorem text_eq_of_highlight (h : highlight room g source policy language = .ok s) :
    s.text = source := by
  obtain ⟨text, rfl, written⟩ := exists_writes_of_highlight h
  exact congrArg Wide.ofString (Text.Utf8.ofString_injective written.bytes)

end Sources

/-- **Highlighting keeps the text.** Whatever tree the grammar returns, the runs of a highlighted
source in order are the source, no run is empty, and no span inside the outermost one is empty. -/
theorem text_of_highlight (room : ℕ) (g : Grammar) (source : Wide) (policy : ClassPolicy)
    (language : Option String) (s : Span)
    (h : highlight room g source policy language = .ok s) :
    s.text = source ∧ (∀ t ∈ s.runs, t ≠ "") ∧ ∀ inner ∈ s.spans.tail, inner.text ≠ "" := by
  obtain ⟨text, rfl, written⟩ := exists_writes_of_highlight h
  exact ⟨text_eq_of_highlight h, written.runs, written.spans⟩

/-- A tree that leaves out the start of its source, and whose children overlap, run backwards and
reach beyond their parent. -/
def crooked : Node where
  label := "program"
  start := 1
  stop := 40
  children := [{ label := "a", start := -7, stop := 4 }, { label := "b", start := 2, stop := 5 },
    { label := "c", start := 9, stop := 4 }, { label := "d", start := 0, stop := 99 }]

/-- A grammar that has one tree for all sources and takes labels for scopes. -/
def fixedGrammar (root : Node) : Grammar where
  serial := 0
  typeName := "Fixed"
  parse := fun _ => .ok (some root)
  resolver := .ok fun c _ => .ok [c.node.label]

theorem text_of_highlight_crooked :
    ∃ s, highlight 3 (fixedGrammar crooked) "lét x" {} none = .ok s ∧ s.spans.length = 5 ∧
      s.text = ("lét x" : Wide) ∧ (∀ t ∈ s.runs, t ≠ "") ∧
      ∀ inner ∈ s.spans.tail, inner.text ≠ "" := by
  have h : highlight 3 (fixedGrammar crooked) "lét x" {} none = .ok ⟨[], [.run "l",
      .span ["program"] [.span ["a"] [.run "ét"], .span ["b"] [.run " "],
        .span ["d"] [.run "x"]]]⟩ := by
    cbv
  exact ⟨_, h, rfl, text_of_highlight _ _ _ _ _ _ h⟩

end CodeHighlight.Highlight
