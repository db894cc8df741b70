import CodeHighlight.Proofs.TreeFaults

/-!
# Failures to read YAML

Main statement: `reads_read`. Reading a text fails only because it is no YAML, or because it holds a
value that cannot be made: a date that does not exist, digits that are no number, a tag that does
not fit, a character with too large a number.

Values carry the failures on the way to them along, and the outermost one decides in the end. All of
them are misreadings (`Built.IsRead`), by induction on the tree: one case for each form of a node
and of what a mapping merges.
-/

namespace CodeHighlight.Yaml

/-! ### Values -/

theorem reads_badValue {α : Type} (message : String) : Reads (badValue message : Except Trace α) :=
  .error (.inr List.mem_cons_self)

theorem reads_signed (cs : List Char) : Reads (signed cs) := by
  cases cs with
  | nil => exact .error (.inr (by decide))
  | cons c cs => exact .ok _

theorem reads_wholeNumber (base : ℕ) (cs : List Char) : Reads (wholeNumber base cs) := by
  unfold wholeNumber
  dsimp only
  split
  · exact .ite (reads_badValue _) (.ite (reads_badValue _) (.ok _))
  · exact reads_badValue _

theorem reads_integerOf (text : String) : Reads (integerOf text) := by
  refine (reads_signed _).bind fun r => ?_
  dsimp only
  refine .ite ((Reads.ok _).bind fun _ => .ok _) ?_
  split
  · exact (reads_wholeNumber _ _).bind fun _ => .ok _
  · exact (reads_wholeNumber _ _).bind fun _ => .ok _
  · exact (reads_wholeNumber _ _).bind fun _ => .ok _
  · exact (Reads.error (.inr (by decide))).bind fun _ => .ok _
  · refine .ite ?_ ((reads_wholeNumber _ _).bind fun _ => .ok _)
    exact (Reads.mapM (reads_wholeNumber _)).bind fun _ => (Reads.ok _).bind fun _ => .ok _

theorem reads_realNumber (cs : List Char) : Reads (realNumber cs) := by
  unfold realNumber
  dsimp only
  split
  · exact .ok _
  · exact reads_badValue _

theorem reads_realOf (text : String) : Reads (realOf text) := by
  refine (reads_signed _).bind fun r => ?_
  dsimp only
  refine .ite (.ok _) (.ite (.ok _) (.ite ?_ ?_))
  · exact (Reads.mapM reads_realNumber).bind fun _ => .ok _
  · exact (reads_realNumber _).bind fun _ => .ok _

theorem reads_zoneMinutes (z : Option (Bool × List Char × List Char)) : Reads (zoneMinutes z) := by
  cases z with
  | none => exact .ok _
  | some z => exact .ite (reads_badValue _) (.ok _)

theorem reads_moment (s : Stamp) : Reads s.moment := by
  unfold Stamp.moment
  dsimp only
  split
  case' h_1 => refine (reads_zoneMinutes _).map.bind fun _ => ?_
  case' h_2 => refine (Reads.ok _).bind fun _ => ?_
  all_goals
    refine .ite (reads_badValue _) (.ite (reads_badValue _) (.ite (reads_badValue _) ?_))
    split
    · exact .ok _
    · exact .ite (reads_badValue _) (.ite (reads_badValue _) (.ite (reads_badValue _) (.ok _)))

theorem reads_momentOf (text : String) : Reads (momentOf text) := by
  unfold momentOf
  split
  · exact reads_moment _
  · exact .error (.inr (by decide))

theorem reads_truthOf (text : String) : Reads (truthOf text) := by
  unfold truthOf
  dsimp only
  split
  · exact .ok _
  · exact .error (.inr (List.mem_cons_of_mem _ List.mem_cons_self))

theorem reads_scalarOf {tag text : String} {x : Except Trace Key} (h : scalarOf tag text = some x) :
    Reads x := by
  unfold scalarOf at h
  split_ifs at h <;> obtain rfl := Option.some.inj h
  · exact .ok _
  · exact (reads_truthOf _).map
  · exact (reads_integerOf _).map
  · exact (reads_realOf _).map
  · exact (reads_momentOf _).map
  · exact .ok _

/-! ### Trees of values -/

/-- All failures on the way to a value are misreadings. -/
def Built.IsRead (b : Built) : Prop := ∀ f ∈ b.faults, IsMisreading f.2

/-- All failures on the way to the keys and values of entries are misreadings. -/
def AreRead (es : List (Built × Built)) : Prop := ∀ e ∈ es, e.1.IsRead ∧ e.2.IsRead

/-- All failures on the way to the entries of a mapping are misreadings. -/
structure BuiltEntries.IsRead (es : BuiltEntries) : Prop where
  merged : AreRead es.merged
  own : AreRead es.own
  faults : ∀ f ∈ es.faults, IsMisreading f.2

theorem Built.isRead_failed (level : ℕ) {t : Trace} (h : IsMisreading t) :
    (Built.failed level t).IsRead := by
  intro f hf
  rw [List.mem_singleton.1 hf]
  exact h

theorem Built.isRead_misfit (level : ℕ) : (Built.misfit level).IsRead :=
  isRead_failed level (isMisreading_fault _)

theorem AreRead.append {es es' : List (Built × Built)} (h : AreRead es) (h' : AreRead es') :
    AreRead (es ++ es') := fun e he => (List.mem_append.1 he).elim (h e) (h' e)

theorem BuiltEntries.IsRead.all {es : BuiltEntries} (h : es.IsRead) : AreRead es.all :=
  h.merged.append h.own

theorem BuiltEntries.IsRead.toBuilt {es : BuiltEntries} (h : es.IsRead) (level : ℕ) :
    (es.toBuilt level).IsRead := by
  intro f hf
  rcases List.mem_append.1 hf with hf | hf
  · exact h.faults f hf
  · obtain ⟨e, he, hf⟩ := List.mem_flatMap.1 hf
    obtain ⟨hkey, hvalue⟩ := h.all e he
    rcases List.mem_append.1 hf with hf | hf
    · rcases List.mem_append.1 hf with hf | hf
      · exact hkey f hf
      · split at hf
        · cases hf
        · rw [List.mem_singleton.1 hf]
          exact isMisreading_fault _
    · exact hvalue f hf

/-- What is merged into a mapping, or the failure to merge it. -/
def IsMerge : Except Trace (List (Built × Built)) → Prop
  | .ok es => AreRead es
  | .error t => IsMisreading t

/-- Entries are merged when none of them fails. -/
def BuiltEntries.merging (es : BuiltEntries) : Except Trace (List (Built × Built)) :=
  match es.faults with
  | (_, t) :: _ => .error t
  | [] => .ok es.all

theorem BuiltEntries.IsRead.isMerge {es : BuiltEntries} (h : es.IsRead) : IsMerge es.merging := by
  unfold BuiltEntries.merging
  cases hfaults : es.faults with
  | nil => exact h.all
  | cons f fs => exact h.faults f (by rw [hfaults]; exact List.mem_cons_self)

theorem isRead_buildScalar (level : ℕ) (tag text : String) :
    (buildScalar level tag text).IsRead := by
  unfold buildScalar
  split
  · exact fun f hf => by cases hf
  · rename_i t h
    exact Built.isRead_failed _ (reads_scalarOf h t rfl)
  · split_ifs <;> exact Built.isRead_misfit _

/-- The key of an entry; the sign for a value is a text there. -/
def buildKey (level : ℕ) : Node → Built
  | .scalar tag text =>
    buildScalar level (if tag = standardTag "value" then standardTag "str" else tag) text
  | k => build level k

theorem buildEntries_cons (level : ℕ) (k v : Node) (rest : List (Node × Node)) :
    buildEntries level ((k, v) :: rest) =
      if k.tag = standardTag "merge" then
        match merge level v with
        | .ok entries =>
          { buildEntries level rest with merged := entries ++ (buildEntries level rest).merged }
        | .error t =>
          { buildEntries level rest with faults := (level, t) :: (buildEntries level rest).faults }
      else
        { buildEntries level rest with
          own := (buildKey level k, build level v) :: (buildEntries level rest).own } := by
  cases k <;> rw [buildEntries]
  case scalar => rfl
  case sequence.x_1 => exact fun _ _ h => by cases h
  case mapping.x_1 => exact fun _ _ h => by cases h
  all_goals rfl

theorem merge_mapping (level : ℕ) (tag : String) (entries : List (Node × Node)) :
    merge level (.mapping tag entries) = (buildEntries level entries).merging := by
  rw [merge]
  rfl

theorem mergeAll_cons (level : ℕ) (tag : String) (entries : List (Node × Node))
    (rest : List Node) :
    mergeAll level (.mapping tag entries :: rest) = (buildEntries level entries).merging >>=
      fun es => (mergeAll level rest).map fun more => more ++ es := by
  rw [mergeAll]
  unfold BuiltEntries.merging
  cases (buildEntries level entries).faults with
  | nil => cases mergeAll level rest <;> rfl
  | cons f fs => rfl

mutual

theorem isRead_build (level : ℕ) : (n : Node) → (build level n).IsRead
  | .scalar tag text => isRead_buildScalar level tag text
  | .sequence tag items => by
    rw [build]
    split_ifs
    · intro f hf
      obtain ⟨b, hb, hf⟩ := List.mem_flatMap.1 hf
      exact isRead_buildAll (level + 1) items b hb f hf
    · exact Built.isRead_misfit _
    · exact Built.isRead_misfit _
  | .mapping tag entries => by
    rw [build]
    split_ifs
    · exact (isRead_buildEntries (level + 1) entries).toBuilt _
    · exact Built.isRead_misfit _
    · exact Built.isRead_misfit _

theorem isRead_buildAll (level : ℕ) : (ns : List Node) → ∀ b ∈ buildAll level ns, b.IsRead
  | [], b, hb => by cases hb
  | n :: ns, b, hb => by
    rw [buildAll] at hb
    rcases List.mem_cons.1 hb with rfl | hb
    · exact isRead_build level n
    · exact isRead_buildAll level ns b hb

theorem isRead_buildEntries (level : ℕ) :
    (es : List (Node × Node)) → (buildEntries level es).IsRead
  | [] => by
    rw [buildEntries]
    constructor <;> exact List.forall_mem_nil _
  | (k, v) :: rest => by
    have hrest := isRead_buildEntries level rest
    have hkey : (buildKey level k).IsRead := by
      unfold buildKey
      split
      · exact isRead_buildScalar _ _ _
      · exact isRead_build level k
    rw [buildEntries_cons]
    split_ifs
    · have hmerge := isMerge_merge level v
      split
      · rename_i entries h
        rw [h] at hmerge
        exact ⟨hmerge.append hrest.merged, hrest.own, hrest.faults⟩
      · rename_i t h
        rw [h] at hmerge
        exact ⟨hrest.merged, hrest.own, List.forall_mem_cons.2 ⟨hmerge, hrest.faults⟩⟩
    · exact ⟨hrest.merged, List.forall_mem_cons.2 ⟨⟨hkey, isRead_build level v⟩, hrest.own⟩,
        hrest.faults⟩

theorem isMerge_merge (level : ℕ) : (n : Node) → IsMerge (merge level n)
  | .mapping tag entries => by
    rw [merge_mapping]
    exact (isRead_buildEntries level entries).isMerge
  | .sequence _ items => by
    rw [merge]
    exact isMerge_mergeAll level items
  | .scalar _ _ => by
    rw [merge]
    exact isMisreading_fault _

theorem isMerge_mergeAll (level : ℕ) : (ns : List Node) → IsMerge (mergeAll level ns)
  | [] => by
    rw [mergeAll]
    exact List.forall_mem_nil _
  | .mapping tag entries :: rest => by
    have hentries := (isRead_buildEntries level entries).isMerge
    have hrest := isMerge_mergeAll level rest
    rw [mergeAll_cons]
    cases h : (buildEntries level entries).merging with
    | error t =>
      rw [h] at hentries
      exact hentries
    | ok es =>
      rw [h] at hentries
      cases h' : mergeAll level rest with
      | error t =>
        rw [h'] at hrest
        exact hrest
      | ok more =>
        rw [h'] at hrest
        exact AreRead.append hrest hentries
  | .sequence _ _ :: _ => isMisreading_fault _
  | .scalar _ _ :: _ => isMisreading_fault _

end

/-- **Reading fails as a misreading only.** -/
theorem reads_read (text : String) : Reads (read text) := by
  refine (reads_ofText text).bind fun root => ?_
  split
  · rename_i n
    unfold Built.result
    split
    · rename_i t h
      obtain ⟨f, hf, rfl⟩ := Option.map_eq_some_iff.1 h
      exact .error (isRead_build 0 n f (List.mem_mergeSort.1 (List.mem_of_head? hf)))
    · exact .ok _
  · exact .ok _

end CodeHighlight.Yaml
