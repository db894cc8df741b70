import CodeHighlight.Proofs.Address
import CodeHighlight.Proofs.Entries
import CodeHighlight.Proofs.Outcomes
import CodeHighlight.Proofs.Utf8
import CodeHighlight.Scope.Table
import Mathlib.Data.List.Sort

/-!
# Scope tables without buckets

A table files its mappings in buckets and keeps each bucket in order. What it answers can be said
without buckets: of all declared mappings those are kept whose selector matches the node, they are
put in order with more steps first and otherwise as declared, and the first alternative that applies
gives the scopes (`scan`). Main statement: `scopesFor_eq_scan`.

Every bucket holds exactly the declared mappings of its key, in order (`Files`). Since the order is
strict, sorting the mappings that match yields the same list as keeping what matches of a bucket.
-/

namespace CodeHighlight
open Text.Utf8 (Bytes slice ofString)

/-! ### Selectors at addresses -/

/-- A step matches the node at an address. -/
def Step.matchesAt (root : Node) (s : Step) (a : Address) : Bool :=
  match root.at? a with
  | none => false
  | some n => n.label = s.label && n.named = s.named && s.place.all (root.isEntry a)

/-- Steps match the successive parents of the node at an address, nearest first. -/
def matchAbove (root : Node) (a : Address) : List Step → Bool
  | [] => true
  | s :: rest => (root.parentOf? a).any fun p => s.matchesAt root p && matchAbove root p rest

/-- A selector matches the node at an address and its successive parents. -/
def Selector.matchesAt (root : Node) (s : Selector) (a : Address) : Bool :=
  s.target.matchesAt root a && matchAbove root a s.above

namespace ScopeTable

/-! ### The scan -/

/-- The selectors of one entry with their texts, each with what it leads to. -/
def declaredBy (interp : Interpreter) (e : Key × Value) :
    Except Trace (List (String × Selector × List Alternative)) :=
  match e.1 with
  | .str group => do
    let alternatives ← readAlternatives interp group e.2
    let selectors ← Selector.ofGroup group
    pure (selectors.map fun s => (s.1, s.2, alternatives))
  | k => refuse ("Scope selector must be a string, got " ++ k.literal)

/-- Mappings numbered in the order of their declaration, from a number on. -/
def numberFrom (i : ℕ) (ds : List (String × Selector × List Alternative)) : List Mapping :=
  (ds.zipIdx i).map fun d => ⟨d.1.1, d.1.2.1, d.1.2.2, d.2⟩

/-- All mappings that a table declares, in the order of their declaration. -/
def declared (interp : Interpreter) (entries : Entries Key Value) :
    Except Trace (List Mapping) := do
  let groups ← entries.mapM (declaredBy interp)
  pure (numberFrom 0 groups.flatten)

/-- The first mapping has more steps, or as many and is not declared later. -/
def NotAfter (m n : Mapping) : Prop :=
  n.selector.length < m.selector.length ∨
    m.selector.length = n.selector.length ∧ m.order ≤ n.order

instance : DecidableRel NotAfter := fun m n =>
  inferInstanceAs (Decidable (n.selector.length < m.selector.length ∨
    m.selector.length = n.selector.length ∧ m.order ≤ n.order))

/-- The scopes of the node at an address by a plain scan of mappings: of those that match, put in
order, the first alternative that applies. -/
def scan (ms : List Mapping) (root : Node) (a : Address) (source : Bytes) :
    Except Trace (List String) :=
  let kept := ms.filter fun m => m.selector.matchesAt root a
  let ordered := kept.insertionSort NotAfter
  let text := (root.at? a).elim "" fun n => textOf n source
  (Alternative.choose text (ordered.flatMap (·.alternatives))).map (·.getD [])

/-! ### Selectors at cursors -/

section Cursors

variable {root : Node} {a : Address} {c : Cursor}

theorem fits_eq_matchesAt (h : root.cursorAt? a = some c) (s : Step) :
    s.fits c = s.matchesAt root a := by
  rw [Step.fits, Step.matchesAt, Node.node_cursorAt? h]
  cases hp : s.place with
  | none => rfl
  | some i =>
    have hi : decide (c.place? = some i) = root.isEntry a i := by
      rw [Bool.eq_iff_iff, decide_eq_true_iff]
      exact Node.place?_cursorAt? h i
    simp only [Option.all_some, hi]

theorem fitAbove_eq_matchAbove (h : root.cursorAt? a = some c) (ss : List Step) :
    fitAbove c ss = matchAbove root a ss := by
  induction ss generalizing a c with
  | nil => rfl
  | cons s ss ih =>
    rw [fitAbove, matchAbove, Node.parent?_cursorAt? h]
    cases hp : root.parentOf? a with
    | none => rfl
    | some p =>
      obtain ⟨d, hd⟩ := Node.exists_cursorAt?_parent h hp
      simp only [Option.bind_some, hd, Option.any_some]
      rw [fits_eq_matchesAt hd, ih hd]

theorem selector_fits_eq_matchesAt (h : root.cursorAt? a = some c) (s : Selector) :
    s.fits c = s.matchesAt root a := by
  rw [Selector.fits, Selector.matchesAt, fits_eq_matchesAt h, fitAbove_eq_matchAbove h]

end Cursors

/-! ### Order -/

section Order

variable {m n k : Mapping} {l : List Mapping}

theorem precedes_iff : m.precedes n = true ↔ n.selector.length < m.selector.length ∨
    m.selector.length = n.selector.length ∧ m.order < n.order := by
  simp [Mapping.precedes]

theorem precedes_trans (hmn : m.precedes n = true) (hnk : n.precedes k = true) :
    m.precedes k = true := by
  rw [precedes_iff] at *
  omega

theorem precedes_of_not (h : m.order ≠ n.order) (hn : ¬ m.precedes n = true) :
    n.precedes m = true := by
  rw [precedes_iff] at *
  omega

theorem notAfter_of_precedes (h : m.precedes n = true) : NotAfter m n := by
  rw [precedes_iff] at h
  unfold NotAfter
  omega

theorem order_eq_of_notAfter (hmn : NotAfter m n) (hnm : NotAfter n m) : m.order = n.order := by
  unfold NotAfter at *
  omega

instance : IsTrans Mapping NotAfter where
  trans m n k hmn hnk := by
    unfold NotAfter at *
    omega

instance : Std.Total NotAfter where
  total m n := by
    unfold NotAfter
    omega

theorem insertInto_perm (m : Mapping) (l : List Mapping) : (m.insertInto l).Perm (m :: l) := by
  induction l with
  | nil => exact List.Perm.refl _
  | cons n l ih =>
    rw [Mapping.insertInto]
    split_ifs
    · exact List.Perm.refl _
    · exact (ih.cons n).trans (List.Perm.swap m n l)

theorem insertInto_pairwise (hl : l.Pairwise fun m n => m.precedes n = true)
    (hm : ∀ n ∈ l, m.order ≠ n.order) :
    (m.insertInto l).Pairwise fun m n => m.precedes n = true := by
  induction l with
  | nil => exact List.pairwise_singleton _ _
  | cons n l ih =>
    obtain ⟨hn, hl⟩ := List.pairwise_cons.1 hl
    rw [Mapping.insertInto]
    split_ifs with h
    · refine List.pairwise_cons.2 ⟨List.forall_mem_cons.2 ⟨h, fun k hk => ?_⟩,
        List.pairwise_cons.2 ⟨hn, hl⟩⟩
      exact precedes_trans h (hn k hk)
    · refine List.pairwise_cons.2 ⟨fun k hk => ?_, ih hl fun k hk => hm k (by simp [hk])⟩
      rcases List.mem_cons.1 ((insertInto_perm m l).mem_iff.1 hk) with rfl | hk
      · exact precedes_of_not (hm n (by simp)) h
      · exact hn k hk

end Order

/-! ### Buckets -/

/-- The key of the bucket of a mapping. -/
def keyOf (m : Mapping) : BucketKey := (m.selector.target.label, m.selector.target.named)

/-- Every bucket of the table holds exactly the mappings of its key, in order. -/
structure Files (t : ScopeTable) (ms : List Mapping) : Prop where
  size : t.size = ms.length
  orders : (ms.map (·.order)).Nodup
  below : ∀ m ∈ ms, m.order < ms.length
  perm : ∀ key, (t.bucket key).Perm (ms.filter fun m => keyOf m = key)
  sorted : ∀ key, (t.bucket key).Pairwise fun m n => m.precedes n = true

section Buckets

variable {t : ScopeTable} {ms : List Mapping}

theorem files_empty : Files {} [] where
  size := rfl
  orders := List.nodup_nil
  below := by simp
  perm _ := List.Perm.refl _
  sorted _ := List.Pairwise.nil

theorem bucket_add (t : ScopeTable) (text : String) (s : Selector) (as : List Alternative)
    (key : BucketKey) : (t.add text s as).bucket key =
      if (s.target.label, s.target.named) = key then
        Mapping.insertInto ⟨text, s, as, t.size⟩ (t.bucket key)
      else t.bucket key := by
  simp only [bucket, add, Entries.get?_insert, beq_iff_eq]
  split_ifs with h
  · rw [Option.getD_some, ← h]
  · rfl

/-- Adding a mapping files it behind those that were declared before. -/
theorem Files.add (h : Files t ms) (text : String) (s : Selector) (as : List Alternative) :
    Files (t.add text s as) (ms ++ [⟨text, s, as, ms.length⟩]) := by
  have new : ∀ m ∈ ms, m.order ≠ ms.length := fun m hm => (h.below m hm).ne
  refine ⟨?_, ?_, ?_, fun key => ?_, fun key => ?_⟩
  · simp [ScopeTable.add, h.size]
  · rw [List.map_append, List.map_singleton]
    refine List.Nodup.append h.orders (List.nodup_singleton _) ?_
    simpa using new
  · intro m hm
    rcases List.mem_append.1 hm with hm | hm
    · have := h.below m hm
      rw [List.length_append]
      omega
    · obtain rfl := List.mem_singleton.1 hm
      simp
  · rw [bucket_add, List.filter_append, h.size]
    split_ifs with hk
    · refine (insertInto_perm _ _).trans (((h.perm key).cons _).trans ?_)
      simpa [keyOf, hk] using (List.perm_append_singleton _ _).symm
    · simpa [keyOf, hk] using h.perm key
  · rw [bucket_add, h.size]
    split_ifs with hk
    · refine insertInto_pairwise (h.sorted key) fun n hn => ?_
      have hn' := List.mem_filter.1 ((h.perm key).mem_iff.1 hn)
      exact (new n hn'.1).symm
    · exact h.sorted key

theorem Files.addAll (h : Files t ms) (ds : List (String × Selector × List Alternative)) :
    Files (ds.foldl (fun t d => t.add d.1 d.2.1 d.2.2) t) (ms ++ numberFrom ms.length ds) := by
  induction ds generalizing t ms with
  | nil => simpa [numberFrom] using h
  | cons d ds ih =>
    have := ih (h.add d.1 d.2.1 d.2.2)
    simpa [numberFrom, List.zipIdx_cons] using this

end Buckets

/-! ### Reading -/

section Reading
variable {interp : Interpreter}

/-- Reading an entry adds what the entry declares. -/
theorem readEntry_eq_ok {t t' : ScopeTable} {e : Key × Value} (h : readEntry interp t e = .ok t') :
    ∃ ds, declaredBy interp e = .ok ds ∧ t' = ds.foldl (fun t d => t.add d.1 d.2.1 d.2.2) t := by
  obtain ⟨k, v⟩ := e
  cases k with
  | str group =>
    obtain ⟨as, ha, h⟩ := Except.bind_eq_ok_iff.1 h
    obtain ⟨ss, hs, h⟩ := Except.bind_eq_ok_iff.1 h
    cases h
    refine ⟨ss.map fun s => (s.1, s.2, as), ?_, ?_⟩
    · exact Except.bind_eq_ok_iff.2 ⟨as, ha, Except.bind_eq_ok_iff.2 ⟨ss, hs, rfl⟩⟩
    · rw [List.foldl_map]
  | _ =>
    obtain ⟨-, -, h⟩ := Except.bind_eq_ok_iff.1 h
    cases h

theorem foldlM_readEntry_eq_ok {t t' : ScopeTable} {entries : Entries Key Value}
    (h : entries.foldlM (readEntry interp) t = .ok t') :
    ∃ groups, entries.mapM (declaredBy interp) = .ok groups ∧
      t' = groups.flatten.foldl (fun t d => t.add d.1 d.2.1 d.2.2) t := by
  induction entries generalizing t with
  | nil => cases h; exact ⟨[], rfl, rfl⟩
  | cons e entries ih =>
    rw [List.foldlM_cons] at h
    obtain ⟨t₁, h₁, h⟩ := Except.bind_eq_ok_iff.1 h
    obtain ⟨ds, hds, rfl⟩ := readEntry_eq_ok h₁
    obtain ⟨groups, hg, rfl⟩ := ih h
    refine ⟨ds :: groups, ?_, ?_⟩
    · rw [List.mapM_cons]
      exact Except.bind_eq_ok_iff.2 ⟨ds, hds, Except.bind_eq_ok_iff.2 ⟨groups, hg, rfl⟩⟩
    · rw [List.flatten_cons, List.foldl_append]

/-- A table that was read files the mappings that were declared. -/
theorem files_of_ofEntries {entries : Entries Key Value} {t : ScopeTable}
    (h : ofEntries interp entries = .ok t) :
    ∃ ms, declared interp entries = .ok ms ∧ Files t ms := by
  obtain ⟨groups, hg, rfl⟩ := foldlM_readEntry_eq_ok h
  refine ⟨numberFrom 0 groups.flatten, Except.bind_eq_ok_iff.2 ⟨groups, hg, rfl⟩, ?_⟩
  simpa using files_empty.addAll groups.flatten

end Reading

/-! ### Choosing -/

/-- A table tests the text between the offsets of the node. -/
theorem textOf_eq_of_slice {n : Node} {t : String} {a b : ℕ} {bs : Bytes} (ha : n.start = a)
    (hb : n.stop = b) (hab : a ≤ b) (hstop : b ≤ bs.length) (ht : slice bs a b = ofString t) :
    textOf n bs = t := by
  have place_eq (k : ℕ) (hk : k ≤ bs.length) : Text.Utf8.place bs.length k = k := by
    unfold Text.Utf8.place
    split_ifs <;> omega
  rw [textOf, Text.Utf8.sliceWrapped, ha, hb, place_eq a (by omega), place_eq b hstop,
    ht, Text.Utf8.decodeLossy_ofString]

theorem choose_append (text : String) (as bs : List Alternative) :
    Alternative.choose text (as ++ bs) = (do
      match ← Alternative.choose text as with
      | some scopes => pure (some scopes)
      | none => Alternative.choose text bs) := by
  induction as with
  | nil => rfl
  | cons a as ih =>
    rw [List.cons_append, Alternative.choose, Alternative.choose]
    cases a.applies text with
    | error e => rfl
    | ok b => cases b with
      | true => rfl
      | false => exact ih

/-- The first scopes of a list of mappings come from the first alternative that applies among those
of the mappings that fit. -/
theorem firstScopes_eq_choose (c : Cursor) (source : Bytes) (l : List Mapping) :
    firstScopes c source l = (Alternative.choose (textOf c.node source)
      ((l.filter fun m => m.selector.fits c).flatMap (·.alternatives))).map (·.getD []) := by
  induction l with
  | nil => rfl
  | cons m l ih =>
    rw [firstScopes, List.filter_cons]
    split_ifs
    · rw [List.flatMap_cons, choose_append]
      cases Alternative.choose (textOf c.node source) m.alternatives with
      | error e => rfl
      | ok o => cases o with
        | some scopes => rfl
        | none => exact ih
    · exact ih

/-! ### Agreement -/

/-- What matches of a bucket is what matches of all mappings, put in order. -/
theorem filter_bucket_eq_sort {t : ScopeTable} {ms : List Mapping} (h : Files t ms)
    (c : Cursor) :
    (t.bucket (c.node.label, c.node.named)).filter (fun m => m.selector.fits c) =
      (ms.filter fun m => m.selector.fits c).insertionSort NotAfter := by
  have key_of_fits : ∀ m : Mapping, m.selector.fits c = true →
      keyOf m = (c.node.label, c.node.named) := by
    intro m hm
    simp only [Selector.fits, Step.fits, Bool.and_eq_true, decide_eq_true_eq] at hm
    rw [keyOf, hm.1.1.1, hm.1.1.2]
  have same : ((t.bucket (c.node.label, c.node.named)).filter fun m => m.selector.fits c).Perm
      (ms.filter fun m => m.selector.fits c) := by
    refine ((h.perm _).filter _).trans ?_
    rw [List.filter_filter]
    refine List.Perm.of_eq (List.filter_congr fun m _ => ?_)
    cases hm : m.selector.fits c with
    | false => rfl
    | true => simp [key_of_fits m hm]
  refine List.Perm.eq_of_pairwise ?_ ?_ (List.pairwise_insertionSort NotAfter _)
    (same.trans (List.perm_insertionSort NotAfter _).symm)
  · intro m n hm hn hmn hnm
    have hm' := List.mem_of_mem_filter (same.mem_iff.1 hm)
    have hn' := List.mem_of_mem_filter ((List.mem_insertionSort NotAfter).1 hn)
    exact List.inj_on_of_nodup_map h.orders hm' hn' (order_eq_of_notAfter hmn hnm)
  · exact ((h.sorted _).imp notAfter_of_precedes).filter _

/-- **A table answers like a plain scan of its mappings.** For every node of every tree the scopes
are those of the first alternative that applies among the declared selectors that match, those with
more steps first and otherwise as declared. -/
theorem scopesFor_eq_scan (interp : Interpreter) (entries : Entries Key Value) (t : ScopeTable)
    (ht : ofEntries interp entries = .ok t) :
    ∃ ms, declared interp entries = .ok ms ∧
      ∀ (root : Node) (a : Address) (c : Cursor) (source : Bytes), root.cursorAt? a = some c →
        t.scopesFor c source = scan ms root a source := by
  obtain ⟨ms, hms, h⟩ := files_of_ofEntries ht
  refine ⟨ms, hms, fun root a c source hc => ?_⟩
  rw [scopesFor, firstScopes_eq_choose, filter_bucket_eq_sort h c, scan,
    Node.node_cursorAt? hc]
  simp only [selector_fits_eq_matchesAt hc, Option.elim_some]

/-- A table with a place, with conditions, and with two selectors of one length. -/
def callTable : Entries Key Value :=
  [(.str "identifier, \"let\"", .str "variable"),
    (.str "call > identifier:nth-child(0)",
      .list [.map [(.str "exact", .str "self"), (.str "scopes", .str "variable.language")],
        .map [(.str "match", .str "^[A-Z]"), (.str "scopes", .str "entity.type")]]),
    (.str "call > identifier", .str "entity.function")]

/-- A call with an identifier that it lists and one that it does not list. -/
def callTree : Node where
  label := "call"
  start := 0
  stop := 4
  children := [{ label := "identifier", start := 0, stop := 1 }]
  strays := [{ label := "identifier", start := 2, stop := 3 }]

theorem scopesFor_eq_scan_call :
    ∃ t ms c, ofEntries .usual callTable = .ok t ∧ declared .usual callTable = .ok ms ∧
      callTree.cursorAt? [.child 0] = some c ∧
      t.scopesFor c (Text.Utf8.ofString "f(x)")
        = scan ms callTree [.child 0] (Text.Utf8.ofString "f(x)") ∧
      scan ms callTree [.child 0] (Text.Utf8.ofString "f(x)") = .ok ["entity.function"] := by
  obtain ⟨ms, hms, h⟩ := scopesFor_eq_scan .usual callTable _ rfl
  have answer : (declared .usual callTable).map (fun ms => scan ms callTree [.child 0]
      (Text.Utf8.ofString "f(x)")) = .ok (.ok ["entity.function"]) := by
    decide +kernel
  rw [hms] at answer
  exact ⟨_, ms, _, rfl, hms, rfl, h _ _ _ _ rfl, Except.ok.inj answer⟩

end ScopeTable
end CodeHighlight
