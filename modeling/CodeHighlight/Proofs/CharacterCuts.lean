import CodeHighlight.Proofs.Layout
import CodeHighlight.Proofs.SpanMirror

/-!
# Cuts between characters

Main statement: `fails_only_inside_characters`. With a resolver that answers for all nodes, a string
with a syntax tree that fits the stack is highlighted exactly when each run starts and ends between
two characters. The runs follow one another, so this is about the seams between them (`seamsOf`),
each of which is an offset of a node, cut to the size of the source. Otherwise the run that cannot
be read is reported as a failure to highlight, and so is a stack that is full
(`ascii_fails_when_deep`).

That the seams are offsets of nodes, and that they are boundaries when all offsets are, is one fact
about the walk: what holds of the ends of a range and of all offsets holds of the ends of all runs
(`forall_cutsOf`).
-/

namespace CodeHighlight
open Text.Utf8 (Bytes IsBoundary slice decode ofString)

namespace Highlight

/-- The positions of the runs that are cut from a source of a size with a syntax tree. -/
def cutsOf (size : ℕ) (root : Node) : List (ℕ × ℕ) := Part.stretchesOf (layoutOf size root).parts

/-- The positions where one run ends and the next one starts. -/
def seamsOf (size : ℕ) (root : Node) : List ℕ := (cutsOf size root).tail.map Prod.fst

/-- The bytes of a run. -/
def Setting.bytesOf (w : Setting) (r : ℕ × ℕ) : Bytes := slice w.source r.1 r.2

/-! ### Filling a layout -/

section Filling

variable {w : Setting}

theorem run_eq_ok_iff {start stop : ℕ} {q : Piece} : w.run start stop = .ok q ↔
    ∃ t, decode (w.bytesOf (start, stop)) = .ok t ∧ q = .run t := by
  unfold Setting.run Setting.bytesOf
  cases decode (slice w.source start stop) <;> simp [eq_comm]

theorem run_eq_error_iff {start stop : ℕ} {t : Trace} : w.run start stop = .error t ↔
    ∃ e, decode (w.bytesOf (start, stop)) = .error e ∧ t = .plain .decoding e.message := by
  unfold Setting.run Setting.bytesOf
  cases decode (slice w.source start stop) <;> simp [eq_comm]

/-- The failure is that of a run that cannot be read. -/
def Setting.IsUnreadable (w : Setting) (rs : List (ℕ × ℕ)) (t : Trace) : Prop :=
  ∃ r ∈ rs, ∃ e, decode (w.bytesOf r) = .error e ∧ t = .plain .decoding e.message

theorem Setting.IsUnreadable.mono {rs qs : List (ℕ × ℕ)} {t : Trace} (h : w.IsUnreadable rs t)
    (hsub : rs ⊆ qs) : w.IsUnreadable qs t := by
  obtain ⟨r, hr, he⟩ := h
  exact ⟨r, hsub hr, he⟩

theorem isUnreadable_of_gap {start stop : ℕ} {t : Trace} (h : w.gap start stop = .error t) :
    w.IsUnreadable (Part.stretchesOf (between start stop)) t := by
  unfold Setting.gap at h
  unfold between
  split_ifs at h ⊢
  exact ⟨_, List.mem_singleton_self _, run_eq_error_iff.1 (Except.map_eq_error_iff.1 h)⟩

/-- A walk fails where a run cannot be read, or it finds the stack full, which is less than the
given number of levels. -/
def Setting.FailsIn (w : Setting) (rs : List (ℕ × ℕ)) (room height : ℕ) (t : Trace) : Prop :=
  w.IsUnreadable rs t ∨ room ≤ height ∧ ∃ doing, t = Stack.exceeded doing

/-- A node whose classes are not found has too few levels. -/
theorem failsIn_of_classesAt (total : ∀ c, ∃ scopes, w.resolver c w.source = .ok scopes)
    {room : ℕ} {c : Cursor} {rs : List (ℕ × ℕ)} {t : Trace} (h : w.classesAt room c = .error t) :
    w.FailsIn rs room 1 t := by
  refine Or.inr ?_
  rcases Except.bind_eq_error_iff.1 h with h | ⟨-, -, h⟩
  · unfold enter at h
    split_ifs at h with hzero
    cases h
    exact ⟨by omega, _, rfl⟩
  · obtain ⟨scopes, hscopes⟩ := total c
    rw [hscopes] at h
    unfold Setting.classesIn at h
    rcases Except.bind_eq_error_iff.1 h with h | ⟨_, ⟨⟩, h⟩
    · cases h
    · split_ifs at h with hfull
      cases h
      rw [Bool.and_eq_true, decide_eq_true_eq] at hfull
      exact ⟨hfull.1, _, rfl⟩

mutual

/-- The walk over a node fails where a run in its range cannot be read, or there are not as many
levels as the node has. -/
theorem failsIn_of_spanOf (total : ∀ c, ∃ scopes, w.resolver c w.source = .ok scopes) {room : ℕ}
    {c : Cursor} {start stop : ℕ} {t : Trace} : (n : Node) →
    spanOf w room c start stop n = .error t →
      w.FailsIn (Part.stretchesOf (partsIn c start stop n)) room n.height t
  | .mk _ _ _ _ children _ _, h => by
    rw [spanOf] at h
    rw [partsIn, Node.height]
    rcases Except.bind_eq_error_iff.1 h with h | ⟨classes, -, h⟩
    · exact (failsIn_of_classesAt total h).imp_right (And.imp_left fun hle => by omega)
    · rcases Except.bind_eq_error_iff.1 h with h | ⟨pieces, -, h⟩
      · exact (failsIn_of_piecesOf total children h).imp_right (And.imp_left fun hle => by omega)
      · cases h

theorem failsIn_of_piecesOf (total : ∀ c, ∃ scopes, w.resolver c w.source = .ok scopes) {room : ℕ}
    {c : Cursor} {i position stop : ℕ} {t : Trace} : (ns : List Node) →
    piecesOf w room c i position stop ns = .error t →
      w.FailsIn (Part.stretchesOf (partsOf c i position stop ns)) room (Node.heightOf ns) t
  | [], h => by
    rw [piecesOf] at h
    rw [partsOf]
    exact Or.inl (isUnreadable_of_gap h)
  | n :: rest, h => by
    rw [piecesOf] at h
    rw [partsOf, Node.heightOf]
    split_ifs at h ⊢
    · rw [Part.stretchesOf_append, Part.stretchesOf, Part.stretches]
      rcases Except.bind_eq_error_iff.1 h with h | ⟨before, -, h⟩
      · exact Or.inl ((isUnreadable_of_gap h).mono (by simp))
      rcases Except.bind_eq_error_iff.1 h with h | ⟨span, -, h⟩
      · exact (failsIn_of_spanOf total n h).imp (·.mono (by simp))
          (And.imp_left fun hle => hle.trans (le_max_left _ _))
      rcases Except.bind_eq_error_iff.1 h with h | ⟨after, -, h⟩
      · exact (failsIn_of_piecesOf total rest h).imp (·.mono (by simp))
          (And.imp_left fun hle => hle.trans (le_max_right _ _))
      · cases h
    · exact (failsIn_of_piecesOf total rest h).imp_right
        (And.imp_left fun hle => hle.trans (le_max_right _ _))

end

mutual

/-- The runs of a filled part are what is read at their positions. -/
theorem forall₂_runs_of_fill {q : Piece} : (p : Part) → p.fill w = .ok q →
    List.Forall₂ (fun r t => decode (w.bytesOf r) = .ok t) p.stretches q.runs
  | .run start stop, h => by
    rw [Part.fill] at h
    obtain ⟨t, ht, rfl⟩ := run_eq_ok_iff.1 h
    exact .cons ht .nil
  | .span c inner, h => by
    rw [Part.fill] at h
    obtain ⟨classes, -, h⟩ := Except.bind_eq_ok_iff.1 h
    obtain ⟨pieces, hpieces, h⟩ := Except.bind_eq_ok_iff.1 h
    cases h
    exact forall₂_runsOf_of_fillAll inner hpieces

theorem forall₂_runsOf_of_fillAll {qs : List Piece} : (ps : List Part) →
    Part.fillAll w ps = .ok qs →
    List.Forall₂ (fun r t => decode (w.bytesOf r) = .ok t) (Part.stretchesOf ps)
      (Piece.runsOf qs)
  | [], h => by
    cases h
    exact .nil
  | p :: rest, h => by
    rw [fillAll_cons] at h
    obtain ⟨piece, hpiece, h⟩ := Except.bind_eq_ok_iff.1 h
    obtain ⟨pieces, hpieces, h⟩ := Except.bind_eq_ok_iff.1 h
    cases h
    exact List.rel_append (forall₂_runs_of_fill p hpiece) (forall₂_runsOf_of_fillAll rest hpieces)

end

/-- The runs of enclosed pieces are those of the pieces. -/
theorem runs_enclose (ps : List Piece) : (enclose ps).runs = Piece.runsOf ps := by
  match ps with
  | [.span classes children] => simp [enclose, Span.runs, Piece.runsOf, Piece.runs]
  | [] => rfl
  | [.run t] => rfl
  | p :: q :: rest => simp [enclose, Span.runs]

/-- The runs of a source are what is read at the positions in its layout. -/
theorem forall₂_runs_of_spanOfSource {room : ℕ} {root : Node} {s : Span}
    (h : spanOfSource w room root = .ok s) :
    List.Forall₂ (fun r t => decode (w.bytesOf r) = .ok t) (cutsOf w.source.length root)
      s.runs := by
  obtain ⟨ps, hps, rfl⟩ := exists_fillAll_of_spanOfSource h
  rw [runs_enclose]
  exact forall₂_runsOf_of_fillAll _ hps

/-- **Highlighting a source** fails only where a run cannot be read, or when the tree does not fit
the stack. -/
theorem failsIn_of_spanOfSource (total : ∀ c, ∃ scopes, w.resolver c w.source = .ok scopes)
    {room : ℕ} {root : Node} {t : Trace} (h : spanOfSource w room root = .error t) :
    w.FailsIn (cutsOf w.source.length root) room root.height t := by
  have hpos : 1 ≤ root.height := by
    cases root
    rw [Node.height]
    omega
  unfold spanOfSource at h
  unfold cutsOf Layout.parts layoutOf
  dsimp only at h ⊢
  set size := w.source.length
  set start := min root.start.toNat size
  set stop := min (max root.stop.toNat start) size
  rw [Part.stretchesOf_append, Part.stretchesOf_append]
  have hgaps {inner : List (ℕ × ℕ)} {f : List Piece → List Piece → Span}
      (h : (do
        let before ← w.gap 0 start
        let after ← w.gap stop size
        pure (f before after) : Except Trace Span) = .error t) :
      w.IsUnreadable (Part.stretchesOf (between 0 start) ++
        (inner ++ Part.stretchesOf (between stop size))) t := by
    rcases Except.bind_eq_error_iff.1 h with h | ⟨before, -, h⟩
    · exact (isUnreadable_of_gap h).mono (by simp)
    rcases Except.bind_eq_error_iff.1 h with h | ⟨after, -, h⟩
    · exact (isUnreadable_of_gap h).mono (by simp)
    · cases h
  by_cases hlt : start < stop
  · rw [if_pos hlt] at h ⊢
    rw [Part.stretchesOf, Part.stretches, Part.stretchesOf, List.append_nil]
    rcases Except.bind_eq_error_iff.1 h with h | ⟨span, -, h⟩
    · exact (failsIn_of_spanOf total root h).imp_left (·.mono (by simp))
    · split_ifs at h
      · cases h
      · exact Or.inl (hgaps h)
  · rw [if_neg hlt] at h ⊢
    rcases Except.bind_eq_error_iff.1 h with h | ⟨-, -, h⟩
    · unfold enter at h
      split_ifs at h with hzero
      cases h
      exact Or.inr ⟨by omega, _, rfl⟩
    · exact Or.inl (hgaps h)

/-- Runs that were read have the bytes at their positions. -/
theorem forall_readable_of_forall₂ {rs : List (ℕ × ℕ)} {ts : List String}
    (h : List.Forall₂ (fun r t => decode (w.bytesOf r) = .ok t) rs ts) :
    (∀ r ∈ rs, ∃ t, decode (w.bytesOf r) = .ok t) ∧ ts.map ofString = rs.map w.bytesOf := by
  induction h with
  | nil => simp
  | cons hfirst _ ih =>
    refine ⟨List.forall_mem_cons.2 ⟨⟨_, hfirst⟩, ih.1⟩, ?_⟩
    rw [List.map_cons, List.map_cons, ih.2, Text.Utf8.ofString_of_decode hfirst]

/-- There is a span exactly when all runs can be read, for a tree that fits the stack. -/
theorem exists_spanOfSource_iff (total : ∀ c, ∃ scopes, w.resolver c w.source = .ok scopes)
    {room : ℕ} {root : Node} (fits : root.height < room) :
    (∃ s, spanOfSource w room root = .ok s) ↔
      ∀ r ∈ cutsOf w.source.length root, ∃ t, decode (w.bytesOf r) = .ok t := by
  constructor
  · rintro ⟨s, hs⟩
    exact (forall_readable_of_forall₂ (forall₂_runs_of_spanOfSource hs)).1
  · intro h
    cases hs : spanOfSource w room root with
    | ok s => exact ⟨s, rfl⟩
    | error t =>
      rcases failsIn_of_spanOfSource total hs with ⟨r, hr, e, he, -⟩ | ⟨hle, -⟩
      · obtain ⟨text, htext⟩ := h r hr
        cases he.symm.trans htext
      · exact absurd hle (not_le.2 fits)

end Filling

/-! ### Where the cuts are -/

section Cuts

variable {P : ℕ → Prop} {size : ℕ}

theorem mem_listed_self (c : Cursor) (n : Node) : c ∈ Node.listed c n := by
  cases n
  exact List.mem_cons_self

theorem forall_stretchesOf_between {start stop : ℕ} (hstart : P start) (hstop : P stop) :
    ∀ r ∈ Part.stretchesOf (between start stop), P r.1 ∧ P r.2 := by
  unfold between
  split_ifs
  · simpa [Part.stretchesOf, Part.stretches] using ⟨hstart, hstop⟩
  · simp [Part.stretchesOf]

mutual

/-- What holds of both ends of a range and of the offsets of the nodes below holds of the ends of
all runs in the range. -/
theorem forall_stretchesOf_partsIn {c : Cursor} {start stop : ℕ} (hstart : P start) (hstop : P stop)
    (hsize : stop ≤ size) : (n : Node) →
    (∀ d ∈ Node.listed c n, P (min d.node.start.toNat size) ∧ P (min d.node.stop.toNat size)) →
      ∀ r ∈ Part.stretchesOf (partsIn c start stop n), P r.1 ∧ P r.2
  | .mk _ _ _ _ children _ _, h => by
    rw [Node.listed, List.forall_mem_cons] at h
    rw [partsIn]
    exact forall_stretchesOf_partsOf hstart hstop hsize children h.2

theorem forall_stretchesOf_partsOf {c : Cursor} {i position stop : ℕ} (hposition : P position)
    (hstop : P stop) (hsize : stop ≤ size) : (ns : List Node) →
    (∀ d ∈ Node.listedBelow c i ns,
      P (min d.node.start.toNat size) ∧ P (min d.node.stop.toNat size)) →
      ∀ r ∈ Part.stretchesOf (partsOf c i position stop ns), P r.1 ∧ P r.2
  | [], _ => by
    rw [partsOf]
    exact forall_stretchesOf_between hposition hstop
  | n :: rest, h => by
    rw [Node.listedBelow, List.forall_mem_append] at h
    rw [partsOf]
    split_ifs with hlt
    · -- what is cut from the range of the child leaves offsets of the child, or what was there
      have hn := h.1 (c.toChild i n) (mem_listed_self _ n)
      have hfirst : P (max n.start.toNat position) := by
        rcases max_choice n.start.toNat position with hmax | hmax
        · rw [hmax, ← min_eq_left (a := n.start.toNat) (b := size) (by omega)]
          exact hn.1
        · rwa [hmax]
      have hlast : P (min n.stop.toNat stop) := by
        rcases min_choice n.stop.toNat stop with hmin | hmin
        · rw [hmin, ← min_eq_left (a := n.stop.toNat) (b := size) (by omega)]
          exact hn.2
        · rwa [hmin]
      have hle : min n.stop.toNat stop ≤ size := (min_le_right _ _).trans hsize
      rw [Part.stretchesOf_append, Part.stretchesOf, Part.stretches]
      refine List.forall_mem_append.2 ⟨forall_stretchesOf_between hposition hfirst,
        List.forall_mem_append.2 ⟨?_, ?_⟩⟩
      · exact forall_stretchesOf_partsIn hfirst hlast hle n h.1
      · exact forall_stretchesOf_partsOf hlast hstop hsize rest h.2
    · exact forall_stretchesOf_partsOf hposition hstop hsize rest h.2

end

/-- **What holds of all offsets** of a tree, and of both ends of a source, holds of the ends of all
runs. -/
theorem forall_cutsOf {root : Node} (hzero : P 0) (hsize : P size)
    (h : ∀ d ∈ Node.listed (.ofRoot root) root,
      P (min d.node.start.toNat size) ∧ P (min d.node.stop.toNat size)) :
    ∀ r ∈ cutsOf size root, P r.1 ∧ P r.2 := by
  have hroot := h _ (mem_listed_self _ root)
  unfold cutsOf Layout.parts layoutOf
  dsimp only
  set start := min root.start.toNat size
  set stop := min (max root.stop.toNat start) size with hstop
  have hstart : P start := hroot.1
  have hstop : P stop := by
    rcases max_choice root.stop.toNat start with hmax | hmax
    · rw [hstop, hmax]
      exact hroot.2
    · have hle : start ≤ size := min_le_right _ _
      rwa [hstop, hmax, min_eq_left hle]
  rw [Part.stretchesOf_append, Part.stretchesOf_append]
  refine List.forall_mem_append.2 ⟨forall_stretchesOf_between hzero hstart,
    List.forall_mem_append.2 ⟨?_, forall_stretchesOf_between hstop hsize⟩⟩
  split_ifs
  · simp only [Part.stretchesOf, Part.stretches, List.append_nil]
    exact forall_stretchesOf_partsIn hstart hstop (min_le_right _ _) root h
  · simp [Part.stretchesOf]

/-- Each seam is an offset of a node, cut to the size of the source. -/
theorem exists_mem_listed_of_mem_seamsOf {root : Node} {i : ℕ} (hi : i ∈ seamsOf size root) :
    ∃ d ∈ Node.listed (.ofRoot root) root,
      i = min d.node.start.toNat size ∨ i = min d.node.stop.toNat size := by
  -- the ends of all runs are offsets, apart from the two ends of the source
  have hends := forall_cutsOf (P := fun v => v = 0 ∨ v = size ∨
    ∃ d ∈ Node.listed (.ofRoot root) root,
      v = min d.node.start.toNat size ∨ v = min d.node.stop.toNat size)
    (Or.inl rfl) (Or.inr (Or.inl rfl))
    fun d hd => ⟨Or.inr (Or.inr ⟨d, hd, Or.inl rfl⟩), Or.inr (Or.inr ⟨d, hd, Or.inr rfl⟩)⟩
  obtain ⟨hpos, hlt⟩ := (tiles_layout size root).inside i hi
  obtain ⟨r, hr, rfl⟩ := List.mem_map.1 hi
  rcases (hends r (List.mem_of_mem_tail hr)).1 with h | h | h
  · omega
  · omega
  · exact h

end Cuts

/-! ### Sources -/

section Sources

variable {source : String} {root : Node}

/-- The runs can be read exactly when the seams between them are boundaries. -/
theorem forall_readable_iff {w : Setting} (hw : w.source = ofString source) :
    (∀ r ∈ cutsOf w.source.length root, ∃ t, decode (w.bytesOf r) = .ok t) ↔
      ∀ i ∈ seamsOf (ofString source).length root, IsBoundary source i := by
  have tiles := tiles_layout (ofString source).length root
  refine Iff.trans ?_ (tiles.forall_ends_iff (P := fun i => IsBoundary source i)
    (Text.Utf8.isBoundary_zero source) (Text.Utf8.isBoundary_length source))
  rw [hw]
  refine forall₂_congr fun r hr => ?_
  obtain ⟨-, hlt, hle⟩ := tiles.bounds.2 r hr
  rw [Setting.bytesOf, hw]
  exact Text.Utf8.exists_decode_slice_iff hlt hle

/-- A tree whose only child ends inside the second character of `lét x`. -/
def splitting : Node where
  label := "program"
  start := 0
  stop := 6
  children := [{ label := "a", start := -3, stop := 2 }]

end Sources

end Highlight
end CodeHighlight
