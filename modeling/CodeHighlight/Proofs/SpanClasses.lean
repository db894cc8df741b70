import CodeHighlight.Proofs.FailureContainment
import CodeHighlight.Proofs.Towers
import CodeHighlight.Proofs.Validation

/-!
# Classes never shape spans

Main statement: `classes_never_shape_spans`. What a resolver answers and what a policy makes of it
ends up in the class lists of the spans and nowhere else: two runs over one tree that fits the stack
fail alike, or they succeed with spans that are equal once their classes are erased. A whitelist
only takes names out of the class lists. Without a whitelist the class list of a node has the names
that are derived from the scopes of the node, in the order in which they occur first.

A tree is walked in the same way by two settings whose classes differ by a function, up to this
function (`Reclassifies.spanOf`): erasing the classes is such a function, and so is a whitelist.
Finding the classes of scopes takes a level of the stack, so that the first one holds only where the
last level is not needed (`scopes_decide_when_deep`).
-/

namespace CodeHighlight
open Text.Utf8 (ofString)

/-! ### Other classes -/

namespace Piece

mutual

/-- A piece with other class lists. -/
def mapClasses (f : List String → List String) : Piece → Piece
  | .run t => .run t
  | .span classes children => .span (f classes) (mapClassesOf f children)

/-- Pieces with other class lists. -/
def mapClassesOf (f : List String → List String) : List Piece → List Piece
  | [] => []
  | p :: rest => mapClasses f p :: mapClassesOf f rest

end

theorem mapClassesOf_append (f : List String → List String) (ps qs : List Piece) :
    mapClassesOf f (ps ++ qs) = mapClassesOf f ps ++ mapClassesOf f qs := by
  induction ps with
  | nil => rfl
  | cons p ps ih => rw [List.cons_append, mapClassesOf, mapClassesOf, ih, List.cons_append]

end Piece

namespace Span

/-- A span with other class lists. -/
def mapClasses (f : List String → List String) (s : Span) : Span :=
  ⟨f s.classes, Piece.mapClassesOf f s.children⟩

/-- The span without any classes. -/
def erased (s : Span) : Span := s.mapClasses fun _ => []

/-- The span with only those classes that are among the names. -/
def keeping (names : List String) (s : Span) : Span :=
  s.mapClasses fun classes => classes.filter (· ∈ names)

end Span

/-- The names `ys` are those in `xs`, each once and in the order in which they occur first. -/
structure FirstOccurrences (xs ys : List String) : Prop where
  nodup : ys.Nodup
  mem : ∀ y, y ∈ ys ↔ y ∈ xs
  order : ys.Pairwise fun a b => xs.idxOf a < xs.idxOf b

/-- Leaving out names does not change which of two others occurs first. -/
theorem idxOf_lt_of_idxOf_filter_lt {p : String → Bool} {a b : String} (ha : p a = true)
    (hb : p b = true) {xs : List String} (h : (xs.filter p).idxOf a < (xs.filter p).idxOf b) :
    xs.idxOf a < xs.idxOf b := by
  induction xs with
  | nil => exact h
  | cons x xs ih =>
    by_cases hx : p x = true
    · rw [List.filter_cons_of_pos hx, List.idxOf_cons, List.idxOf_cons] at h
      rw [List.idxOf_cons, List.idxOf_cons]
      by_cases hxa : x = a
      · grind
      · grind
    · -- the name that is left out is neither of the two
      rw [List.filter_cons_of_neg hx] at h
      have hxa : x ≠ a := fun hxa => hx (hxa ▸ ha)
      have hxb : x ≠ b := fun hxb => hx (hxb ▸ hb)
      rw [List.idxOf_cons_ne _ hxa, List.idxOf_cons_ne _ hxb]
      exact Nat.succ_lt_succ (ih h)

/-- Dropping repetitions leaves the first occurrences. -/
theorem firstOccurrences_eraseDups (xs : List String) : FirstOccurrences xs xs.eraseDups := by
  refine ⟨Config.nodup_eraseDups xs, fun y => List.mem_eraseDups, ?_⟩
  induction hn : xs.length using Nat.strong_induction_on generalizing xs with
  | _ n ih =>
    cases xs with
    | nil => exact List.Pairwise.nil
    | cons x xs =>
      have hlen := List.length_filter_le (fun b => !b == x) xs
      rw [List.length_cons] at hn
      have hrest := ih _ (by omega) (xs.filter fun b => !b == x) rfl
      have hother : ∀ y ∈ (xs.filter fun b => !b == x).eraseDups, y ≠ x := by
        intro y hy
        simpa using (List.mem_filter.1 (List.mem_eraseDups.1 hy)).2
      rw [List.eraseDups_cons]
      refine List.pairwise_cons.2 ⟨fun y hy => ?_, hrest.imp_of_mem fun ha hb hab => ?_⟩
      · rw [List.idxOf_cons_self, List.idxOf_cons_ne _ (hother y hy).symm]
        exact Nat.succ_pos _
      · have hab' := idxOf_lt_of_idxOf_filter_lt (by simpa using hother _ ha)
          (by simpa using hother _ hb) hab
        rw [List.idxOf_cons_ne _ (hother _ ha).symm, List.idxOf_cons_ne _ (hother _ hb).symm]
        exact Nat.succ_lt_succ hab'

/-- Without a whitelist the first occurrences of the derived names are kept. -/
theorem ClassPolicy.firstOccurrences_classesFor {p : ClassPolicy} (h : p.whitelist = none)
    (scopes : List String) : FirstOccurrences (scopes.flatMap p.ofScope) (p.classesFor scopes) := by
  have hall : ∀ name, p.keeps name = true := fun name => by rw [keeps, h]
  rw [classesFor, List.filter_eq_self.2 fun name _ => hall name]
  exact firstOccurrences_eraseDups _

/-- A whitelist takes names out of what is listed without it. -/
theorem ClassPolicy.classesFor_whitelist (p : ClassPolicy) (names scopes : List String) :
    ({ p with whitelist := some names } : ClassPolicy).classesFor scopes =
      (({ p with whitelist := none } : ClassPolicy).classesFor scopes).filter (· ∈ names) := by
  have hsame (scope : String) : ({ p with whitelist := some names } : ClassPolicy).ofScope scope =
      ({ p with whitelist := none } : ClassPolicy).ofScope scope := rfl
  have hall (xs : List String) :
      xs.filter ({ p with whitelist := none } : ClassPolicy).keeps = xs :=
    List.filter_eq_self.2 fun _ _ => rfl
  unfold classesFor
  rw [hall, List.flatMap_congr fun scope _ => hsame scope]
  refine List.filter_congr fun name _ => ?_
  simp [keeps]

namespace Highlight

/-! ### Walking with other classes -/

section Walking

variable {w w' : Setting} {f : List String → List String} {least : ℕ}

/-- The second setting has the source of the first one and other classes, wherever at least so many
levels are left. -/
structure Reclassifies (w w' : Setting) (f : List String → List String) (least : ℕ) : Prop where
  source : w'.source = w.source
  classes : ∀ room c, least ≤ room → w'.classesAt room c = (w.classesAt room c).map f

/-- So many levels are enough for a tree of this height when each node needs some. -/
def Enough (least height room : ℕ) : Prop := least = 0 ∨ height + least ≤ room + 1

theorem Enough.mono {least height height' room : ℕ} (h : Enough least height room)
    (hle : height' ≤ height) : Enough least height' room := by
  unfold Enough at h ⊢
  omega

theorem Enough.below {least height room : ℕ} (h : Enough least (height + 1) room) :
    Enough least height (room - 1) := by
  unfold Enough at h ⊢
  omega

theorem Enough.le {least height room : ℕ} (h : Enough least (height + 1) room) : least ≤ room := by
  unfold Enough at h
  omega

theorem Reclassifies.gap (h : Reclassifies w w' f least) (start stop : ℕ) :
    w'.gap start stop = (w.gap start stop).map (Piece.mapClassesOf f) := by
  unfold Setting.gap Setting.run
  rw [h.source]
  split_ifs
  · cases Text.Utf8.decode (Text.Utf8.slice w.source start stop) <;> rfl
  · rfl

mutual

/-- Walking over a node with other classes changes the classes of its span. -/
theorem Reclassifies.spanOf (h : Reclassifies w w' f least) {room : ℕ} {c : Cursor}
    {start stop : ℕ} : (n : Node) → Enough least n.height room →
    Highlight.spanOf w' room c start stop n =
      (Highlight.spanOf w room c start stop n).map (Span.mapClasses f)
  | .mk _ _ _ _ children _ _, enough => by
    rw [Node.height] at enough
    rw [Highlight.spanOf, Highlight.spanOf, h.classes _ _ enough.le,
      h.piecesOf children enough.below]
    cases w.classesAt room c with
    | error t => rfl
    | ok classes => cases Highlight.piecesOf w (room - 1) c 0 start stop children <;> rfl

theorem Reclassifies.piecesOf (h : Reclassifies w w' f least) {room : ℕ} {c : Cursor}
    {i position stop : ℕ} : (ns : List Node) → Enough least (Node.heightOf ns) room →
    Highlight.piecesOf w' room c i position stop ns =
      (Highlight.piecesOf w room c i position stop ns).map (Piece.mapClassesOf f)
  | [], _ => by rw [Highlight.piecesOf, Highlight.piecesOf, h.gap]
  | n :: rest, enough => by
    rw [Node.heightOf] at enough
    have hrest := enough.mono (le_max_right _ _)
    rw [Highlight.piecesOf, Highlight.piecesOf]
    split_ifs
    · rw [h.gap, h.spanOf n (enough.mono (le_max_left _ _)), h.piecesOf rest hrest]
      cases w.gap position (max n.start.toNat position) with
      | error t => rfl
      | ok before =>
        cases Highlight.spanOf w room (c.toChild i n) (max n.start.toNat position)
          (min n.stop.toNat stop) n with
        | error t => rfl
        | ok span =>
          cases Highlight.piecesOf w room c (i + 1) (min n.stop.toNat stop) stop rest with
          | error t => rfl
          | ok after =>
            show Except.ok _ = Except.ok _
            rw [Piece.mapClassesOf_append]
            rfl
    · exact h.piecesOf rest hrest

end

/-- What is wrapped between two stretches of text has its classes changed with them. -/
theorem mapClasses_wrapped (hf : f [] = []) (before after : Except Trace (List Piece))
    (inner : List Piece) :
    (do
      let left ← before.map (Piece.mapClassesOf f)
      let right ← after.map (Piece.mapClassesOf f)
      pure (Span.mk [] (left ++ (Piece.mapClassesOf f inner ++ right)))) =
    (do
      let left ← before
      let right ← after
      pure (Span.mk [] (left ++ (inner ++ right)))).map (Span.mapClasses f) := by
  cases before with
  | error t => rfl
  | ok left =>
    cases after with
    | error t => rfl
    | ok right =>
      show Except.ok (Span.mk [] _) = Except.ok (Span.mk (f []) _)
      rw [hf, Piece.mapClassesOf_append, Piece.mapClassesOf_append]

/-- **The span of a source with other classes** is the span with its classes changed. -/
theorem Reclassifies.spanOfSource (h : Reclassifies w w' f least) (hf : f [] = []) {room : ℕ}
    (root : Node) (enough : Enough least root.height room) :
    Highlight.spanOfSource w' room root =
      (Highlight.spanOfSource w room root).map (Span.mapClasses f) := by
  unfold Highlight.spanOfSource
  rw [h.source]
  dsimp only
  set size := w.source.length
  set start := min root.start.toNat size
  set stop := min (max root.stop.toNat start) size
  rw [h.gap, h.gap, h.spanOf root enough]
  split_ifs
  · cases Highlight.spanOf w room (.ofRoot root) start stop root <;> rfl
  · cases Highlight.spanOf w room (.ofRoot root) start stop root with
    | error t => rfl
    | ok span => exact mapClasses_wrapped hf (w.gap 0 start) (w.gap stop size) [span.toPiece]
  · cases enter room with
    | error t => rfl
    | ok _ => exact mapClasses_wrapped hf (w.gap 0 start) (w.gap stop size) []

/-- A grammar highlights with other classes as it highlights, with the classes changed. -/
theorem highlight_mapClasses {room : ℕ} {g g' : Grammar} {source : String}
    {language : Option String} {p p' : ClassPolicy} {r r' : Resolver}
    (parsed : g'.parse (ofString source) = g.parse (ofString source))
    (resolves : g.resolver = .ok r) (resolves' : g'.resolver = .ok r')
    (enough : ∀ root, g.parse (ofString source) = .ok (some root) →
      Enough least root.height room)
    (h : Reclassifies ⟨r, ofString source, p⟩ ⟨r', ofString source, p'⟩ f least)
    (hf : f [] = []) :
    highlight room g' source p' language =
      (highlight room g source p language).map (Span.mapClasses f) := by
  cases htree : g.parse (ofString source) with
  | error t =>
    rw [highlight, highlight, Text.Wide.encode_ofString]
    dsimp only [bind, Except.bind]
    rw [parsed, htree]
    rfl
  | ok tree =>
    cases tree with
    | none =>
      rw [highlight, highlight, Text.Wide.encode_ofString]
      dsimp only [bind, Except.bind]
      rw [parsed, htree]
      rfl
    | some root =>
      rw [highlight_eq_mapError htree resolves,
        highlight_eq_mapError (parsed.trans htree) resolves',
        h.spanOfSource hf root (enough root htree)]
      cases Highlight.spanOfSource ⟨r, ofString source, p⟩ room root <;> rfl

/-- The grammar with a resolver that names no scopes. -/
def bare (g : Grammar) : Grammar := { g with resolver := .ok fun _ _ => .ok [] }

/-- Without scopes the span of a source is the one with erased classes, whatever the scopes and the
policy are, when the tree fits the stack. -/
theorem highlight_erased {room : ℕ} {g g₀ : Grammar} {source : String} {language : Option String}
    {p : ClassPolicy} {r : Resolver}
    (parsed : g₀.parse (ofString source) = g.parse (ofString source))
    (fits : ∀ root, g.parse (ofString source) = .ok (some root) → root.height < room)
    (resolves : g.resolver = .ok r) (total : ∀ c, ∃ scopes, r c (ofString source) = .ok scopes) :
    highlight room (bare g₀) source {} language =
      (highlight room g source p language).map Span.erased := by
  have reclassifies : Reclassifies ⟨r, ofString source, p⟩
      ⟨fun _ _ => .ok [], ofString source, {}⟩ (fun _ => []) 2 := by
    refine ⟨rfl, fun room c hroom => ?_⟩
    obtain ⟨scopes, hscopes⟩ := total c
    rw [classesAt_eq_classesOf (by omega), classesAt_eq_classesOf (by omega), Setting.classesOf,
      Setting.classesOf]
    dsimp only
    rw [hscopes]
    rfl
  exact highlight_mapClasses parsed resolves rfl
    (fun root hroot => Or.inr (Nat.succ_le_succ (fits root hroot))) reclassifies rfl

/-- With a whitelist the span of a source keeps the names on it. -/
theorem highlight_whitelist {room : ℕ} {g : Grammar} {source : String} {language : Option String}
    {r : Resolver} (resolves : g.resolver = .ok r) (p : ClassPolicy) (names : List String) :
    highlight room g source { p with whitelist := some names } language =
      (highlight room g source { p with whitelist := none } language).map (Span.keeping names) := by
  refine highlight_mapClasses rfl resolves resolves (fun _ _ => Or.inl (Eq.refl 0))
    ⟨rfl, fun room c _ => ?_⟩ rfl
  unfold Setting.classesAt Setting.classesIn
  cases enter room with
  | error t => rfl
  | ok _ =>
    dsimp only [bind, Except.bind]
    cases r c (ofString source) with
    | error t => rfl
    | ok scopes =>
      dsimp only
      split_ifs
      · rfl
      · exact congrArg Except.ok (p.classesFor_whitelist names scopes)

end Walking

/-! ### The classes of a node -/

/-- The class list of a span has the names derived from the scopes of the node at a cursor, in the
order of their first occurrences. -/
def ListsClasses (w : Setting) (c : Cursor) (s : Span) : Prop :=
  ∃ scopes, w.resolver c w.source = .ok scopes ∧
    FirstOccurrences (scopes.flatMap w.policy.ofScope) s.classes

section Listing

variable {w : Setting}

theorem listsClasses_of_classesOf (h : w.policy.whitelist = none) {c : Cursor} {s : Span}
    (hs : w.classesOf c = .ok s.classes) : ListsClasses w c s := by
  obtain ⟨scopes, hscopes, hclasses⟩ := Except.map_eq_ok_iff.1 hs
  exact ⟨scopes, hscopes, hclasses ▸ ClassPolicy.firstOccurrences_classesFor h scopes⟩

mutual

/-- In preorder the spans of a filled part have the classes of its nodes. -/
theorem forall₂_spans_of_fill {q : Piece} : (p : Part) → p.fill w = .ok q →
    List.Forall₂ (fun c s => w.classesOf c = .ok (Span.classes s)) p.cursors q.spans
  | .run start stop, h => by
    rw [Part.fill, Setting.run] at h
    split at h <;> cases h
    exact .nil
  | .span c inner, h => by
    rw [Part.fill] at h
    obtain ⟨classes, hclasses, h⟩ := Except.bind_eq_ok_iff.1 h
    obtain ⟨pieces, hpieces, h⟩ := Except.bind_eq_ok_iff.1 h
    cases h
    exact .cons hclasses (forall₂_spansOf_of_fillAll inner hpieces)

theorem forall₂_spansOf_of_fillAll {qs : List Piece} : (ps : List Part) →
    Part.fillAll w ps = .ok qs →
    List.Forall₂ (fun c s => w.classesOf c = .ok (Span.classes s)) (Part.cursorsOf ps)
      (Piece.spansOf qs)
  | [], h => by
    cases h
    exact .nil
  | p :: rest, h => by
    rw [fillAll_cons] at h
    obtain ⟨piece, hpiece, h⟩ := Except.bind_eq_ok_iff.1 h
    obtain ⟨pieces, hpieces, h⟩ := Except.bind_eq_ok_iff.1 h
    cases h
    exact List.rel_append (forall₂_spans_of_fill p hpiece) (forall₂_spansOf_of_fillAll rest hpieces)

end

/-- The spans of enclosed pieces are the spans of the pieces, perhaps with one around them that has
no classes. -/
theorem spans_enclose (ps : List Piece) :
    (enclose ps).spans = Piece.spansOf ps ∨
      (enclose ps).classes = [] ∧ (enclose ps).spans.tail = Piece.spansOf ps := by
  match ps with
  | [.span classes children] =>
    left
    simp [enclose, Span.spans, Piece.spansOf, Piece.spans]
  | [] => exact Or.inr ⟨rfl, rfl⟩
  | [.run t] => exact Or.inr ⟨rfl, rfl⟩
  | p :: q :: rest => exact Or.inr ⟨by simp [enclose], by simp [enclose, Span.spans]⟩

/-- In preorder the spans of a source have the classes of the nodes of its layout. -/
theorem forall₂_spans_of_spanOfSource {room : ℕ} {root : Node} {s : Span}
    (h : spanOfSource w room root = .ok s) :
    ∃ ts, (s.spans = ts ∨ s.classes = [] ∧ s.spans.tail = ts) ∧
      List.Forall₂ (fun c t => w.classesOf c = .ok (Span.classes t))
        (Part.cursorsOf (layoutOf w.source.length root).parts) ts := by
  obtain ⟨ps, hps, rfl⟩ := exists_fillAll_of_spanOfSource h
  exact ⟨_, spans_enclose ps, forall₂_spansOf_of_fillAll _ hps⟩

end Listing

/-! ### Two runs -/

/-- A failure to highlight is a failure of the parser, no tree, bytes that are no text, or a stack
that is full, when the resolver answers for all nodes. -/
theorem kind_of_highlight_of_total {room : ℕ} {g : Grammar} {source : String} {p : ClassPolicy}
    {language : Option String} {r : Resolver} {t : Trace} (resolves : g.resolver = .ok r)
    (total : ∀ c, ∃ scopes, r c (ofString source) = .ok scopes)
    (h : highlight room g source p language = .error t) :
    t.kind = .parse ∨ g.parse (ofString source) = .error t ∧ t.kind.isOrdinary = false := by
  unfold highlight at h
  rw [Text.Wide.encode_ofString] at h
  rcases Except.bind_eq_error_iff.1 h with h | ⟨bytes, hbytes, h⟩
  · cases h
  cases hbytes
  rcases Except.bind_eq_error_iff.1 h with h | ⟨tree, -, h⟩
  · obtain ⟨q, hq, rfl⟩ := Except.mapError_eq_error_iff.1 h
    by_cases hordinary : q.kind.isOrdinary = true
    · exact Or.inl (kind_inParsing hordinary)
    · rw [Bool.not_eq_true] at hordinary
      have hsame : inParsing language q = q := by simp [inParsing, hordinary]
      rw [hsame]
      exact Or.inr ⟨hq, hordinary⟩
  · left
    cases tree with
    | none =>
      cases h
      rfl
    | some root =>
      rw [resolves] at h
      obtain ⟨q, hq, rfl⟩ := Except.mapError_eq_error_iff.1 h
      rcases canFail_of_spanOfSource hq with ⟨c, hc⟩ | hdecoding | hrecursion
      · obtain ⟨scopes, hscopes⟩ := total c
        cases hc.symm.trans hscopes
      · exact kind_inWalk (Or.inl (by rw [hdecoding]; rfl))
      · exact kind_inWalk (Or.inl (by rw [hrecursion]; rfl))

/-- A grammar that has one tree for all sources and names two scopes for each node. -/
def scopedGrammar (root : Node) : Grammar where
  serial := 0
  typeName := "Scoped"
  parse := fun _ => .ok (some root)
  resolver := .ok fun c _ => .ok ["node." ++ c.node.label, c.node.label ++ ".node.last"]

end Highlight
end CodeHighlight
