import CodeHighlight.Proofs.SpanText

/-!
# Layouts

Where the runs of a highlighted source lie, and which nodes its spans belong to, depends on the
offsets of the syntax tree and on the size of the source only. A layout says just that: a run is
given by its two positions, a span by the cursor of its node. Filling a layout reads the bytes of
its runs and finds the classes of its nodes.

Main statements: highlighting a source is filling the layout of its tree, provided that there is a
level for each level of nodes and one more (`spanOfSource_eq_fill`), and the runs of that layout
follow one another from the start of the source to its end (`tiles_layout`).

More levels never do harm (`spanOfSource_mono`). So a span that was made with few levels is the one
that the layout gives.
-/

namespace CodeHighlight
namespace Highlight

/-- A part of a layout: a run by its positions, or the span of the node at a cursor. -/
inductive Part where
  | run (start stop : ℕ)
  | span (c : Cursor) (inner : List Part)

namespace Part

mutual

/-- The positions of the runs of a part, in order. -/
def stretches : Part → List (ℕ × ℕ)
  | .run start stop => [(start, stop)]
  | .span _ inner => stretchesOf inner

/-- The positions of the runs of several parts, in order. -/
def stretchesOf : List Part → List (ℕ × ℕ)
  | [] => []
  | p :: rest => stretches p ++ stretchesOf rest

end

mutual

/-- The cursors of the nodes of a part, parents first. -/
def cursors : Part → List Cursor
  | .run _ _ => []
  | .span c inner => c :: cursorsOf inner

/-- The cursors of the nodes of several parts, parents first. -/
def cursorsOf : List Part → List Cursor
  | [] => []
  | p :: rest => cursors p ++ cursorsOf rest

end

theorem stretchesOf_append (ps qs : List Part) :
    stretchesOf (ps ++ qs) = stretchesOf ps ++ stretchesOf qs := by
  induction ps with
  | nil => rfl
  | cons p ps ih => rw [List.cons_append, stretchesOf, stretchesOf, ih, List.append_assoc]

end Part

/-! ### The layout of a tree -/

/-- The run between two positions, or nothing when they are not apart. -/
def between (start stop : ℕ) : List Part := if start < stop then [.run start stop] else []

mutual

/-- The parts inside the span of the node at a cursor for the range from `start` to `stop`. -/
def partsIn (c : Cursor) (start stop : ℕ) : Node → List Part
  | .mk _ _ _ _ children _ _ => partsOf c 0 start stop children

/-- The parts from `position` to `stop` for the children of the node at a cursor, the first of which
has the place `i`. -/
def partsOf (c : Cursor) (i position stop : ℕ) : List Node → List Part
  | [] => between position stop
  | n :: rest =>
    let first := max n.start.toNat position
    let last := min n.stop.toNat stop
    if first < last then
      between position first ++ .span (c.toChild i n) (partsIn (c.toChild i n) first last n)
        :: partsOf c (i + 1) last stop rest
    else partsOf c (i + 1) position stop rest

end

/-- The layout of a whole source: what lies before the root, the span of the root unless its range
is empty, and what lies behind the root. -/
structure Layout where
  before : List Part
  inner : List Part
  after : List Part

/-- All parts in order. -/
def Layout.parts (l : Layout) : List Part := l.before ++ (l.inner ++ l.after)

/-- The layout of a source of a size with a syntax tree. -/
def layoutOf (size : ℕ) (root : Node) : Layout :=
  let start := min root.start.toNat size
  let stop := min (max root.stop.toNat start) size
  { before := between 0 start
    inner :=
      if start < stop then [.span (.ofRoot root) (partsIn (.ofRoot root) start stop root)] else []
    after := between stop size }

/-! ### Filling -/

/-- The classes of the node at a cursor when there are levels enough. -/
def Setting.classesOf (w : Setting) (c : Cursor) : Except Trace (List String) :=
  (w.resolver c w.source).map w.policy.classesFor

mutual

/-- A part with the text of its runs and the classes of its nodes. -/
def Part.fill (w : Setting) : Part → Except Trace Piece
  | .run start stop => w.run start stop
  | .span c inner => do
    let classes ← w.classesOf c
    let pieces ← Part.fillAll w inner
    pure (.span classes pieces)

/-- Several parts with the text of their runs and the classes of their nodes. -/
def Part.fillAll (w : Setting) : List Part → Except Trace (List Piece)
  | [] => .ok []
  | p :: rest => do
    let piece ← Part.fill w p
    let pieces ← Part.fillAll w rest
    pure (piece :: pieces)

end

/-- Pieces as a span: one span alone is that span, others are enclosed in a span without classes. -/
def enclose : List Piece → Span
  | [.span classes children] => ⟨classes, children⟩
  | ps => ⟨[], ps⟩

/-- A layout as a span; the span of the root is filled before what lies around it. -/
def Layout.fill (w : Setting) (l : Layout) : Except Trace Span := do
  let inner ← Part.fillAll w l.inner
  let before ← Part.fillAll w l.before
  let after ← Part.fillAll w l.after
  pure (enclose (before ++ (inner ++ after)))

section Filling

variable {w : Setting}

theorem fillAll_nil : Part.fillAll w [] = pure [] := rfl

theorem fillAll_cons (p : Part) (ps : List Part) : Part.fillAll w (p :: ps) = (do
    let piece ← p.fill w
    let pieces ← Part.fillAll w ps
    pure (piece :: pieces)) := rfl

theorem fillAll_append (ps qs : List Part) : Part.fillAll w (ps ++ qs) = (do
    let as ← Part.fillAll w ps
    let bs ← Part.fillAll w qs
    pure (as ++ bs)) := by
  induction ps with
  | nil => simp [fillAll_nil]
  | cons p ps ih => simp [fillAll_cons, ih]

theorem fillAll_between (start stop : ℕ) :
    Part.fillAll w (between start stop) = w.gap start stop := by
  unfold between Setting.gap
  split_ifs
  · rw [Part.fillAll, Part.fill]
    cases w.run start stop <;> rfl
  · rfl

theorem classesAt_eq_classesOf {room : ℕ} (h : 1 < room) (c : Cursor) :
    w.classesAt room c = w.classesOf c := by
  have henter : enter room = .ok () := if_neg (by omega)
  unfold Setting.classesAt Setting.classesOf Setting.classesIn
  rw [henter]
  cases w.resolver c w.source with
  | error t => rfl
  | ok scopes => exact if_neg (by simp [show ¬room ≤ 1 by omega])

mutual

/-- The span of a node has the classes of the node around its parts. -/
theorem spanOf_eq {room : ℕ} {c : Cursor} {start stop : ℕ} : (n : Node) → n.height < room →
    spanOf w room c start stop n = (do
      let classes ← w.classesOf c
      let pieces ← Part.fillAll w (partsIn c start stop n)
      pure ⟨classes, pieces⟩)
  | .mk _ _ _ _ children _ _, fits => by
    rw [Node.height] at fits
    have hbelow : Node.heightOf children < room - 1 := by omega
    rw [spanOf, partsIn, classesAt_eq_classesOf (by omega), piecesOf_eq children hbelow]

/-- The pieces for the children of a node are the parts for them, filled. -/
theorem piecesOf_eq {room : ℕ} {c : Cursor} {i position stop : ℕ} : (ns : List Node) →
    Node.heightOf ns < room →
    piecesOf w room c i position stop ns = Part.fillAll w (partsOf c i position stop ns)
  | [], _ => by rw [piecesOf, partsOf, fillAll_between]
  | n :: rest, fits => by
    rw [Node.heightOf, max_lt_iff] at fits
    rw [piecesOf, partsOf]
    split_ifs
    · simp only [fillAll_append, fillAll_between, fillAll_cons, Part.fill, spanOf_eq n fits.1,
        piecesOf_eq rest fits.2, bind_assoc, pure_bind]
      rfl
    · exact piecesOf_eq rest fits.2

end

/-! ### More levels -/

theorem enter_mono {room room' : ℕ} (hle : room ≤ room') (h : enter room = .ok ()) :
    enter room' = .ok () := by
  unfold enter at h ⊢
  split_ifs at h with hzero
  exact if_neg (by omega)

theorem classesAt_mono {room room' : ℕ} (hle : room ≤ room') {c : Cursor} {classes : List String}
    (h : w.classesAt room c = .ok classes) : w.classesAt room' c = .ok classes := by
  obtain ⟨⟨⟩, henter, h⟩ := Except.bind_eq_ok_iff.1 h
  obtain ⟨scopes, hscopes, h⟩ := Except.bind_eq_ok_iff.1 h
  unfold Setting.classesIn at h
  split_ifs at h with hfull
  cases h
  refine Except.bind_eq_ok_iff.2 ⟨(), enter_mono hle henter,
    Except.bind_eq_ok_iff.2 ⟨scopes, hscopes, if_neg fun hfull' => hfull ?_⟩⟩
  rw [Bool.and_eq_true, decide_eq_true_eq] at hfull' ⊢
  exact ⟨hle.trans hfull'.1, hfull'.2⟩

mutual

/-- A span that is made is made with more levels too. -/
theorem spanOf_mono {room room' : ℕ} (hle : room ≤ room') {c : Cursor} {start stop : ℕ} {s : Span} :
    (n : Node) → spanOf w room c start stop n = .ok s → spanOf w room' c start stop n = .ok s
  | .mk _ _ _ _ children _ _, h => by
    rw [spanOf] at h ⊢
    obtain ⟨classes, hclasses, h⟩ := Except.bind_eq_ok_iff.1 h
    obtain ⟨pieces, hpieces, h⟩ := Except.bind_eq_ok_iff.1 h
    have hbelow := piecesOf_mono (Nat.sub_le_sub_right hle 1) children hpieces
    exact Except.bind_eq_ok_iff.2 ⟨classes, classesAt_mono hle hclasses,
      Except.bind_eq_ok_iff.2 ⟨pieces, hbelow, h⟩⟩

theorem piecesOf_mono {room room' : ℕ} (hle : room ≤ room') {c : Cursor} {i position stop : ℕ}
    {ps : List Piece} : (ns : List Node) → piecesOf w room c i position stop ns = .ok ps →
      piecesOf w room' c i position stop ns = .ok ps
  | [], h => by
    rw [piecesOf] at h ⊢
    exact h
  | n :: rest, h => by
    rw [piecesOf] at h ⊢
    split_ifs at h ⊢
    · obtain ⟨before, hbefore, h⟩ := Except.bind_eq_ok_iff.1 h
      obtain ⟨span, hspan, h⟩ := Except.bind_eq_ok_iff.1 h
      obtain ⟨after, hafter, h⟩ := Except.bind_eq_ok_iff.1 h
      rw [hbefore, spanOf_mono hle n hspan, piecesOf_mono hle rest hafter]
      exact h
    · exact piecesOf_mono hle rest h

end

/-- **More levels do no harm**: a source that is highlighted is so with more levels too. -/
theorem spanOfSource_mono {room room' : ℕ} (hle : room ≤ room') {root : Node} {s : Span}
    (h : spanOfSource w room root = .ok s) : spanOfSource w room' root = .ok s := by
  unfold spanOfSource at h ⊢
  dsimp only at h ⊢
  split_ifs at h ⊢
  · obtain ⟨span, hspan, h⟩ := Except.bind_eq_ok_iff.1 h
    rw [spanOf_mono hle root hspan]
    exact h
  · obtain ⟨span, hspan, h⟩ := Except.bind_eq_ok_iff.1 h
    rw [spanOf_mono hle root hspan]
    exact h
  · obtain ⟨⟨⟩, henter, h⟩ := Except.bind_eq_ok_iff.1 h
    rw [enter_mono hle henter]
    exact h

/-! ### The height of spans -/

/-- A gap is one run, or nothing. -/
theorem gap_spec {start stop : ℕ} {ps : List Piece} (h : w.gap start stop = .ok ps) :
    (start < stop ∧ ∃ t, ps = [.run t]) ∨ (¬ start < stop ∧ ps = []) := by
  unfold Setting.gap at h
  split_ifs at h with hlt
  · obtain ⟨p, hp, rfl⟩ := Except.map_eq_ok_iff.1 h
    unfold Setting.run at hp
    split at hp
    · cases hp
      exact Or.inl ⟨hlt, _, rfl⟩
    · cases hp
  · cases h
    exact Or.inr ⟨hlt, rfl⟩

theorem heightOf_append (ps qs : List Piece) :
    Piece.heightOf (ps ++ qs) = max (Piece.heightOf ps) (Piece.heightOf qs) := by
  induction ps with
  | nil => rw [List.nil_append, Piece.heightOf, Nat.zero_max]
  | cons p ps ih => rw [List.cons_append, Piece.heightOf, Piece.heightOf, ih, max_assoc]

theorem heightOf_of_gap {start stop : ℕ} {ps : List Piece} (h : w.gap start stop = .ok ps) :
    Piece.heightOf ps = 0 := by
  rcases gap_spec h with ⟨-, t, rfl⟩ | ⟨-, rfl⟩ <;> rfl

mutual

/-- A span has at most the levels of its node. -/
theorem height_of_spanOf {room : ℕ} {c : Cursor} {start stop : ℕ} {s : Span} :
    (n : Node) → spanOf w room c start stop n = .ok s → s.height ≤ n.height
  | .mk _ _ _ _ children _ _, h => by
    rw [spanOf] at h
    obtain ⟨classes, -, h⟩ := Except.bind_eq_ok_iff.1 h
    obtain ⟨pieces, hpieces, h⟩ := Except.bind_eq_ok_iff.1 h
    cases h
    exact Nat.succ_le_succ (heightOf_of_piecesOf children hpieces)

theorem heightOf_of_piecesOf {room : ℕ} {c : Cursor} {i position stop : ℕ} {ps : List Piece} :
    (ns : List Node) → piecesOf w room c i position stop ns = .ok ps →
      Piece.heightOf ps ≤ Node.heightOf ns
  | [], h => by
    rw [piecesOf] at h
    rw [heightOf_of_gap h]
    exact Nat.zero_le _
  | n :: rest, h => by
    rw [piecesOf] at h
    rw [Node.heightOf]
    split_ifs at h
    · obtain ⟨before, hbefore, h⟩ := Except.bind_eq_ok_iff.1 h
      obtain ⟨span, hspan, h⟩ := Except.bind_eq_ok_iff.1 h
      obtain ⟨after, hafter, h⟩ := Except.bind_eq_ok_iff.1 h
      cases h
      rw [heightOf_append, Piece.heightOf, heightOf_of_gap hbefore, Nat.zero_max]
      exact max_le_max (height_of_spanOf n hspan) (heightOf_of_piecesOf rest hafter)
    · exact (heightOf_of_piecesOf rest h).trans (le_max_right _ _)

end

/-- **The span of a source** has at most one level more than the tree. -/
theorem height_of_spanOfSource {room : ℕ} {root : Node} {s : Span}
    (h : spanOfSource w room root = .ok s) : s.height ≤ root.height + 1 := by
  unfold spanOfSource at h
  dsimp only at h
  split_ifs at h
  · obtain ⟨span, hspan, h⟩ := Except.bind_eq_ok_iff.1 h
    cases h
    exact (height_of_spanOf root hspan).trans (Nat.le_succ _)
  · obtain ⟨span, hspan, h⟩ := Except.bind_eq_ok_iff.1 h
    obtain ⟨before, hbefore, h⟩ := Except.bind_eq_ok_iff.1 h
    obtain ⟨after, hafter, h⟩ := Except.bind_eq_ok_iff.1 h
    cases h
    show Piece.heightOf (before ++ span.toPiece :: after) + 1 ≤ root.height + 1
    rw [heightOf_append, Piece.heightOf, heightOf_of_gap hbefore, heightOf_of_gap hafter,
      Nat.zero_max, Nat.max_zero]
    exact Nat.succ_le_succ (height_of_spanOf root hspan)
  · obtain ⟨⟨⟩, -, h⟩ := Except.bind_eq_ok_iff.1 h
    obtain ⟨before, hbefore, h⟩ := Except.bind_eq_ok_iff.1 h
    obtain ⟨after, hafter, h⟩ := Except.bind_eq_ok_iff.1 h
    cases h
    show Piece.heightOf (before ++ after) + 1 ≤ root.height + 1
    rw [heightOf_append, heightOf_of_gap hbefore, heightOf_of_gap hafter]
    exact Nat.succ_le_succ (Nat.zero_le _)

/-! ### Whole sources -/

/-- A span stays as it is when nothing lies around it. -/
theorem enclose_around (s : Span) {start stop size : ℕ} (hstop : stop ≤ size) :
    (if start = 0 && stop = size then pure s
      else do
        let before ← w.gap 0 start
        let after ← w.gap stop size
        pure ⟨[], before ++ s.toPiece :: after⟩) = (do
      let before ← w.gap 0 start
      let after ← w.gap stop size
      pure (enclose (before ++ ([s.toPiece] ++ after))) : Except Trace Span) := by
  split_ifs with hall
  · simp only [Bool.and_eq_true, decide_eq_true_eq] at hall
    rw [hall.1, hall.2, Setting.gap, Setting.gap, if_neg (lt_irrefl _), if_neg (lt_irrefl _)]
    rfl
  · cases hb : w.gap 0 start with
    | error t => rfl
    | ok before =>
      cases ha : w.gap stop size with
      | error t => rfl
      | ok after =>
        -- there is a run before the span or behind it
        rcases gap_spec hb with ⟨_, t, rfl⟩ | ⟨h0, rfl⟩
        · rfl
        · rcases gap_spec ha with ⟨_, t, rfl⟩ | ⟨h1, rfl⟩
          · rfl
          · exfalso
            simp only [Bool.and_eq_true, decide_eq_true_eq] at hall
            omega

/-- **Highlighting a source** is filling the layout of its tree when there are levels enough. -/
theorem spanOfSource_eq_fill {room : ℕ} {root : Node} (fits : root.height < room) :
    spanOfSource w room root = (layoutOf w.source.length root).fill w := by
  have henter : enter room = .ok () := if_neg (by omega)
  unfold spanOfSource layoutOf Layout.fill
  dsimp only
  set size := w.source.length
  set start := min root.start.toNat size
  set stop := min (max root.stop.toNat start) size with hstop
  by_cases hlt : start < stop
  · rw [if_pos hlt, if_pos hlt]
    simp only [fillAll_nil, fillAll_cons, Part.fill, fillAll_between, spanOf_eq root fits,
      bind_assoc, pure_bind]
    refine bind_congr fun classes => bind_congr fun pieces => ?_
    exact enclose_around ⟨classes, pieces⟩ (hstop ▸ min_le_right _ _)
  · -- without a root there are runs only
    rw [if_neg hlt, if_neg hlt, henter]
    simp only [fillAll_nil, fillAll_between, pure_bind]
    show (do
      let before ← w.gap 0 start
      let after ← w.gap stop size
      pure ⟨[], before ++ after⟩ : Except Trace Span) = _
    cases hb : w.gap 0 start with
    | error t => rfl
    | ok before =>
      cases ha : w.gap stop size with
      | error t => rfl
      | ok after =>
        rcases gap_spec hb with ⟨_, t, rfl⟩ | ⟨_, rfl⟩ <;>
          rcases gap_spec ha with ⟨_, u, rfl⟩ | ⟨_, rfl⟩ <;> rfl

/-- A source that was highlighted has the parts of its layout, filled and enclosed. -/
theorem exists_fillAll_of_spanOfSource {room : ℕ} {root : Node} {s : Span}
    (h : spanOfSource w room root = .ok s) :
    ∃ ps, Part.fillAll w (layoutOf w.source.length root).parts = .ok ps ∧ s = enclose ps := by
  replace h := spanOfSource_mono (le_max_left room (root.height + 1)) h
  rw [spanOfSource_eq_fill (Nat.lt_of_succ_le (le_max_right _ _)), Layout.fill] at h
  obtain ⟨inner, hinner, h⟩ := Except.bind_eq_ok_iff.1 h
  obtain ⟨before, hbefore, h⟩ := Except.bind_eq_ok_iff.1 h
  obtain ⟨after, hafter, h⟩ := Except.bind_eq_ok_iff.1 h
  cases h
  refine ⟨_, ?_, rfl⟩
  rw [Layout.parts, fillAll_append, fillAll_append, hbefore, hinner, hafter]
  rfl

/-- **The number of levels does not matter** when there are enough for the tree. -/
theorem highlight_eq_of_height {room room' : ℕ} {g : Grammar} {source : Text.Wide}
    {policy : ClassPolicy} {language : Option String}
    (fits : ∀ bytes root, source.encode = .ok bytes → g.parse bytes = .ok (some root) →
      root.height < room ∧ root.height < room') :
    highlight room g source policy language = highlight room' g source policy language := by
  unfold highlight
  cases hbytes : source.encode with
  | error t => rfl
  | ok bytes =>
    dsimp only [bind, Except.bind]
    cases htree : g.parse bytes with
    | error t => rfl
    | ok tree =>
      cases tree with
      | none => rfl
      | some root =>
        obtain ⟨hroom, hroom'⟩ := fits bytes root hbytes htree
        dsimp only [Except.mapError]
        simp only [spanOfSource_eq_fill hroom, spanOfSource_eq_fill hroom']

/-- A span that was made has at most one level more than the tree. -/
theorem height_le_of_highlight {room : ℕ} {g : Grammar} {source : Text.Wide}
    {policy : ClassPolicy} {language : Option String} {s : Span}
    (h : highlight room g source policy language = .ok s) :
    ∃ bytes root, source.encode = .ok bytes ∧ g.parse bytes = .ok (some root) ∧
      s.height ≤ root.height + 1 := by
  obtain ⟨bytes, hbytes, h⟩ := Except.bind_eq_ok_iff.1 h
  obtain ⟨tree, htree, h⟩ := Except.bind_eq_ok_iff.1 h
  cases tree with
  | none => cases h
  | some root =>
    obtain ⟨resolver, -, h⟩ := Except.bind_eq_ok_iff.1 h
    exact ⟨bytes, root, hbytes, Except.mapError_eq_ok_iff.1 htree,
      height_of_spanOfSource (Except.mapError_eq_ok_iff.1 h)⟩

end Filling

/-! ### Tiling -/

/-- Stretches that follow one another from one position to another, none of them empty. -/
def Tiles (start stop : ℕ) : List (ℕ × ℕ) → Prop
  | [] => start = stop
  | r :: rest => r.1 = start ∧ r.1 < r.2 ∧ Tiles r.2 stop rest

section Tiling

theorem Tiles.append {start middle stop : ℕ} {rs qs : List (ℕ × ℕ)} (hr : Tiles start middle rs)
    (hq : Tiles middle stop qs) : Tiles start stop (rs ++ qs) := by
  induction rs generalizing start with
  | nil =>
    have : start = middle := hr
    rwa [this]
  | cons r rs ih => exact ⟨hr.1, hr.2.1, ih hr.2.2⟩

/-- No stretch is empty, and all of them lie between the two positions. -/
theorem Tiles.bounds {start stop : ℕ} {rs : List (ℕ × ℕ)} (h : Tiles start stop rs) :
    start ≤ stop ∧ ∀ r ∈ rs, start ≤ r.1 ∧ r.1 < r.2 ∧ r.2 ≤ stop := by
  induction rs generalizing start with
  | nil => exact ⟨le_of_eq h, by simp⟩
  | cons r rs ih =>
    obtain ⟨rfl, hlt, hrest⟩ := h
    obtain ⟨hle, hall⟩ := ih hrest
    refine ⟨hlt.le.trans hle, List.forall_mem_cons.2 ⟨⟨le_rfl, hlt, hle⟩, fun q hq => ?_⟩⟩
    obtain ⟨hfrom, hrange⟩ := hall q hq
    exact ⟨hlt.le.trans hfrom, hrange⟩

/-- Where a stretch follows another one is neither the first nor the last position. -/
theorem Tiles.inside {start stop : ℕ} {rs : List (ℕ × ℕ)} (h : Tiles start stop rs) :
    ∀ i ∈ rs.tail.map Prod.fst, start < i ∧ i < stop := by
  cases rs with
  | nil => simp
  | cons r rs =>
    obtain ⟨rfl, hlt, hrest⟩ := h
    intro i hi
    obtain ⟨q, hq, rfl⟩ := List.mem_map.1 hi
    obtain ⟨hfrom, hrange, hto⟩ := hrest.bounds.2 q hq
    exact ⟨hlt.trans_le hfrom, hrange.trans_le hto⟩

/-- What holds of the first and the last position holds of all ends if it holds where a stretch
follows another one. -/
theorem Tiles.forall_ends_iff {P : ℕ → Prop} {start stop : ℕ} {rs : List (ℕ × ℕ)}
    (h : Tiles start stop rs) (hstart : P start) (hstop : P stop) :
    (∀ r ∈ rs, P r.1 ∧ P r.2) ↔ ∀ i ∈ rs.tail.map Prod.fst, P i := by
  constructor
  · intro hends i hi
    obtain ⟨r, hr, rfl⟩ := List.mem_map.1 hi
    exact (hends r (List.mem_of_mem_tail hr)).1
  · intro hseams
    induction rs generalizing start with
    | nil => simp
    | cons r rs ih =>
      obtain ⟨rfl, -, hrest⟩ := h
      rw [List.tail_cons] at hseams
      -- the stretch ends at the last position or where the next one starts
      have hend : P r.2 := by
        cases rs with
        | nil =>
          obtain rfl : r.2 = stop := hrest
          exact hstop
        | cons q rs =>
          rw [← hrest.1]
          exact hseams q.1 List.mem_cons_self
      refine List.forall_mem_cons.2 ⟨⟨hstart, hend⟩, ih hrest hend fun i hi => hseams i ?_⟩
      exact List.mem_of_mem_tail (by rwa [List.map_tail] at hi)

theorem tiles_between {start stop : ℕ} (h : start ≤ stop) :
    Tiles start stop (Part.stretchesOf (between start stop)) := by
  unfold between
  split_ifs with hlt
  · exact ⟨rfl, hlt, rfl⟩
  · show start = stop
    omega

mutual

theorem tiles_partsIn {c : Cursor} {start stop : ℕ} (h : start ≤ stop) : (n : Node) →
    Tiles start stop (Part.stretchesOf (partsIn c start stop n))
  | .mk _ _ _ _ children _ _ => by
    rw [partsIn]
    exact tiles_partsOf h children

/-- The runs for the remaining children of a node make up what is left of its range. -/
theorem tiles_partsOf {c : Cursor} {i position stop : ℕ} (h : position ≤ stop) :
    (ns : List Node) → Tiles position stop (Part.stretchesOf (partsOf c i position stop ns))
  | [] => by
    rw [partsOf]
    exact tiles_between h
  | n :: rest => by
    rw [partsOf]
    split_ifs with hlt
    · have hfirst : position ≤ max n.start.toNat position := le_max_right _ _
      have hlast : min n.stop.toNat stop ≤ stop := min_le_right _ _
      rw [Part.stretchesOf_append, Part.stretchesOf, Part.stretches]
      exact (tiles_between hfirst).append ((tiles_partsIn hlt.le n).append
        (tiles_partsOf hlast rest))
    · exact tiles_partsOf h rest

end

/-- **The runs of a source** follow one another from its start to its end. -/
theorem tiles_layout (size : ℕ) (root : Node) :
    Tiles 0 size (Part.stretchesOf (layoutOf size root).parts) := by
  unfold layoutOf Layout.parts
  dsimp only
  set start := min root.start.toNat size
  set stop := min (max root.stop.toNat start) size
  rw [Part.stretchesOf_append, Part.stretchesOf_append]
  refine (tiles_between (Nat.zero_le start)).append (Tiles.append ?_ (tiles_between ?_))
  · split_ifs with hlt
    · simp only [Part.stretchesOf, Part.stretches, List.append_nil]
      exact tiles_partsIn hlt.le root
    · show start = stop
      omega
  · exact min_le_right _ _

end Tiling

end Highlight
end CodeHighlight
