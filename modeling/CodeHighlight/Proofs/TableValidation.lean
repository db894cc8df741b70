import CodeHighlight.Proofs.CheckedFields
import CodeHighlight.Proofs.KeyOrder
import CodeHighlight.Proofs.Outcomes
import CodeHighlight.Proofs.SelectorText
import CodeHighlight.Proofs.Utf8
import CodeHighlight.Proofs.WrittenValues

/-!
# The validation of tables

Main statement: `vetted_unless_misfit`. A table is refused with a value failure, or it is built and
answers for every node of every tree, unless one of its alternatives is a misfit: a conditional with
a key that is no text, a pattern that is no text, or one that the engine for patterns gives up on;
or a value that has to be written out and is nested too deep for the stack. Each misfit is enough to
break this.

The engine may be any that treats the patterns of the table as it is documented to
(`Pattern.Engine.Documents`); the engine of this program treats all patterns so. A value is too deep
to be written out only if it has more levels than are left (`Value.IsTooDeep.lt_depth`).

What reading a part of a table can come to is said by a condition on what is read, with value
failures as the only other outcome (`IsVetted`); such conditions follow the steps of a reader.
-/

namespace CodeHighlight
open Text.Utf8 (Bytes ofString)

/-- What was read is good, or it was refused with a value failure. -/
def IsVetted {α : Type} (good : α → Prop) : Except Trace α → Prop
  | .ok a => good a
  | .error t => t.kind = .value

section Vetting
variable {α β : Type} {good : α → Prop} {fine : β → Prop}

theorem IsVetted.bind {x : Except Trace α} {f : α → Except Trace β} (hx : IsVetted good x)
    (hf : ∀ a, x = .ok a → good a → IsVetted fine (f a)) : IsVetted fine (x >>= f) := by
  cases x with
  | error t => exact hx
  | ok a => exact hf a rfl hx

theorem IsVetted.mapM {f : α → Except Trace β} {xs : List α}
    (h : ∀ x ∈ xs, IsVetted fine (f x)) : IsVetted (fun ys => ∀ y ∈ ys, fine y) (xs.mapM f) := by
  induction xs with
  | nil => exact List.forall_mem_nil _
  | cons x xs ih =>
    obtain ⟨hx, hxs⟩ := List.forall_mem_cons.1 h
    rw [List.mapM_cons]
    refine hx.bind fun y _ hy => (ih hxs).bind fun ys _ hys => ?_
    exact List.forall_mem_cons.2 ⟨hy, hys⟩

theorem IsVetted.foldlM {f : β → α → Except Trace β} {xs : List α} {b : β} (hb : fine b)
    (h : ∀ b, ∀ x ∈ xs, fine b → IsVetted fine (f b x)) : IsVetted fine (xs.foldlM f b) := by
  induction xs generalizing b with
  | nil => exact hb
  | cons x xs ih =>
    rw [List.foldlM_cons]
    refine (h b x List.mem_cons_self hb).bind fun b' _ hb' => ih hb' fun b y hy => ?_
    exact h b y (List.mem_cons_of_mem _ hy)

theorem isVetted_of_kind {x : Except Trace α} (h : ∀ t, x = .error t → t.kind = .value) :
    IsVetted (fun _ => True) x := by
  cases x with
  | error t => exact h t rfl
  | ok a => trivial

end Vetting

/-! ### Values that are written out -/

/-- Writing out a value that is not too deep fails with a value failure at most. -/
theorem Value.isVetted_writable {v : Value} {levels : ℕ} (h : ¬v.IsTooDeep levels) :
    IsVetted (fun _ => True) (v.writable levels) := by
  refine isVetted_of_kind fun t ht => ?_
  rcases overruns_writable v levels ht with hvalue | hdeep
  · exact hvalue
  · exact absurd ⟨t, ht, hdeep.1⟩ h

/-! ### Engines -/

namespace Pattern

/-- A value is a text or bytes, and so a pattern may be written in it. -/
def isWritten : Value → Bool
  | .scalar (.str _) | .scalar (.bytes _) => true
  | _ => false

/-- **What an engine is documented to do.** A pattern that was compiled from a text searches every
text, one that was compiled from bytes fails to search any text with a failure of types, and so does
the compilation of anything else. -/
inductive Engine.Documents (engine : Engine) : Value → Prop
  | text (s : String) (total : ∀ p, engine.compile (.str s) = .ok p →
      ∀ text, ∃ b, p.run text = .ok b) :
    engine.Documents (.str s)
  | bytes (bs : Bytes) (strict : ∀ p, engine.compile (.scalar (.bytes bs)) = .ok p →
      ∀ text, ∃ t, p.run text = .error t ∧ t.kind = .type) :
    engine.Documents (.scalar (.bytes bs))
  | other {v : Value} {t : Trace} (refused : engine.compile v = .error t) (hkind : t.kind = .type) :
    engine.Documents v

variable {text : String}

theorem eq_of_compileText {make : Pattern → Searcher} {s : Searcher}
    (h : compileText text make = .ok s) : ∃ p, s = make p := by
  unfold compileText at h
  split at h
  · exact ⟨_, (Except.ok.inj h).symm⟩
  · cases h

/-- **The engine of this program** does what it is documented to do. -/
theorem documents_builtin (v : Value) : Engine.builtin.Documents v := by
  cases v with
  | scalar k =>
    cases k with
    | str s =>
      refine .text s fun p hp => ?_
      obtain ⟨q, rfl⟩ := eq_of_compileText hp
      exact fun text => ⟨q.search text, rfl⟩
    | bytes bs =>
      refine .bytes bs fun p hp text => ?_
      obtain ⟨q, rfl⟩ := eq_of_compileText hp
      exact ⟨_, rfl, rfl⟩
    | _ => exact .other rfl rfl
  | _ => exact .other rfl rfl

end Pattern

namespace ScopeTable

/-! ### Misfits -/

/-- The table answers for every node of every tree and every source. -/
def Answers (t : ScopeTable) : Prop :=
  ∀ (root : Node) (a : Address) (c : Cursor) (source : Bytes), root.cursorAt? a = some c →
    ∃ scopes, t.scopesFor c source = .ok scopes

/-- The alternatives in what a group of selectors leads to: one by one the items of a list, unless
all of them are texts. -/
def alternativesIn (v : Value) : List Value :=
  match v with
  | .list items | .tuple items => if items.all fun i => i.str?.isSome then [v] else items
  | v => [v]

/-- The keys that a conditional may not have. -/
def unknownKeys (m : Entries Key Value) : List Key :=
  (Entries.keys m).filter fun k => !(k.str?.any fun s => conditionalKeys.contains s)

/-- The pattern of a conditional. -/
def patternOf (m : Entries Key Value) : Value := (Entries.get? m (.str "match")).getD .null

/-- The text that a conditional asks for. -/
def exactOf (m : Entries Key Value) : Value := (Entries.get? m (.str "exact")).getD .null

/-- There is no pattern, or the engine compiles it. -/
def IsCompiled (engine : Pattern.Engine) (pattern : Value) : Prop :=
  pattern.isNull = true ∨ ∃ p, engine.compile pattern = .ok p

/-- What is wrong with a conditional that has these scopes: a key that is no text, or else a pattern
that is neither a text nor bytes, or one that the engine gives up on although it is not malformed.
If the pattern is compiled, it may be one over bytes in a conditional that can be read; or what
stands for the scopes, or for the text, is nested too deep to be written out. -/
inductive Defect (interp : Interpreter) (m : Entries Key Value) (scopes : Value) : Prop
  | key {k : Key} (hk : k ∈ Entries.keys m) (h : ¬k.IsText)
  | pattern (known : unknownKeys m = []) (present : (patternOf m).isNull = false)
      (h : Pattern.isWritten (patternOf m) = false)
  | givenUp {t : Trace} (known : unknownKeys m = []) (present : (patternOf m).isNull = false)
      (h : interp.engine.compile (patternOf m) = .error t) (hmalformed : t.kind ≠ Pattern.malformed)
      (hvalue : t.kind ≠ .value)
  | bytes {bs : Bytes} {p : Searcher} {names : List String}
      (known : unknownKeys m = []) (hbytes : patternOf m = .scalar (.bytes bs))
      (hp : interp.engine.compile (patternOf m) = .ok p) (hscopes : scopes? scopes = some names)
      (hexact : (exactOf m).writable interp.levels = .ok ())
  | deepScopes (known : unknownKeys m = []) (hp : IsCompiled interp.engine (patternOf m))
      (hscopes : scopes? scopes = none) (deep : scopes.IsTooDeep interp.levels)
  | deepText {names : List String} (known : unknownKeys m = [])
      (hp : IsCompiled interp.engine (patternOf m)) (hscopes : scopes? scopes = some names)
      (deep : (exactOf m).IsTooDeep interp.levels)

/-- An alternative that escapes the validation: a conditional that has scopes and a defect, or a
value that is neither a conditional nor scopes and is nested too deep to be written out. -/
inductive IsMisfit (interp : Interpreter) : Value → Prop
  | conditional {m : Entries Key Value} {scopes : Value}
      (hscopes : Entries.get? m (.str "scopes") = some scopes) (defect : Defect interp m scopes) :
    IsMisfit interp (.map m)
  | scopes {v : Value} (hv : ∀ m, v ≠ .map m) (hscopes : scopes? v = none)
      (deep : v.IsTooDeep interp.levels) :
    IsMisfit interp v

/-- One of the alternatives of a table is a misfit. -/
def HasMisfit (interp : Interpreter) (entries : Entries Key Value) : Prop :=
  ∃ group v a, (Key.str group, v) ∈ entries ∧ a ∈ alternativesIn v ∧ IsMisfit interp a

/-- An engine treats the pattern of a conditional as documented, if there is one. -/
def Treats (engine : Pattern.Engine) (m : Entries Key Value) : Prop :=
  (patternOf m).isNull = false → engine.Documents (patternOf m)

/-- An engine treats the patterns of a table as documented. -/
def TreatsAll (engine : Pattern.Engine) (entries : Entries Key Value) : Prop :=
  ∀ group v m, (Key.str group, v) ∈ entries → .map m ∈ alternativesIn v → Treats engine m

/-! ### Reading a conditional -/

section Conditionals
variable {interp : Interpreter} {group : String} {m : Entries Key Value} {v : Value}

theorem kind_patternFailure (group : String) (t : Trace) :
    (patternFailure group t).kind = if t.kind = Pattern.malformed then .value else t.kind := by
  unfold patternFailure
  split_ifs
  · exact Trace.kind_raiseFrom _ _
  · rfl

/-- The failure of a search is that of the engine. -/
theorem readSearch_of_error {t : Trace} (present : v.isNull = false)
    (h : interp.engine.compile v = .error t) :
    readSearch interp group v = .error (patternFailure group t) := by
  rw [readSearch, if_neg (by simp [present]), h]

theorem readSearch_of_ok {p : Searcher} (present : v.isNull = false)
    (h : interp.engine.compile v = .ok p) : readSearch interp group v = .ok (some p) := by
  rw [readSearch, if_neg (by simp [present]), h]

/-- A search is read where there is no pattern, or where the engine compiles it. -/
theorem exists_readSearch_iff (group : String) :
    (∃ search, readSearch interp group v = .ok search) ↔ IsCompiled interp.engine v := by
  cases hnull : v.isNull with
  | true => exact ⟨fun _ => .inl hnull, fun _ => ⟨none, by rw [readSearch, if_pos hnull]⟩⟩
  | false =>
    rcases hcompile : interp.engine.compile v with t | p
    · rw [readSearch_of_error hnull hcompile]
      refine ⟨by rintro ⟨search, ⟨⟩⟩, ?_⟩
      rintro (h | ⟨p, hp⟩)
      · cases hnull.symm.trans h
      · cases hcompile.symm.trans hp
    · exact ⟨fun _ => .inr ⟨p, hcompile⟩, fun _ => ⟨some p, readSearch_of_ok hnull hcompile⟩⟩

theorem readScopes_of_some {names : List String} (h : scopes? v = some names) :
    readScopes interp group v = .ok names := by
  rw [readScopes, h]

theorem readScopes_of_none (h : scopes? v = none) :
    readScopes interp group v = badScopes interp group v := by
  rw [readScopes, h]

/-- Scopes are refused with a value failure, unless they are nested too deep to be written out. -/
theorem isVetted_readScopes (h : scopes? v = none → ¬v.IsTooDeep interp.levels) :
    IsVetted (fun names => scopes? v = some names) (readScopes interp group v) := by
  rcases hscopes : scopes? v with _ | names
  · rw [readScopes_of_none hscopes]
    exact (Value.isVetted_writable (h hscopes)).bind fun _ _ _ => rfl
  · rw [readScopes_of_some hscopes]
    exact rfl

/-- The failure to write out a value that is no scopes is passed on. -/
theorem exists_readScopes_of_isTooDeep (group : String) (hscopes : scopes? v = none)
    (deep : v.IsTooDeep interp.levels) :
    ∃ t, readScopes interp group v = .error t ∧ t.kind ≠ .value := by
  obtain ⟨t, ht, hkind⟩ := deep
  refine ⟨t, ?_, by rw [hkind]; decide⟩
  rw [readScopes_of_none hscopes, badScopes, ht]
  rfl

/-- A text is refused with a value failure, unless it is nested too deep to be written out. -/
theorem isVetted_readExact (h : ¬v.IsTooDeep interp.levels) :
    IsVetted (fun _ => v.writable interp.levels = .ok ()) (readExact interp v) := by
  unfold readExact
  split_ifs with hnull
  · rw [Value.isNull_iff.1 hnull]
    exact rfl
  · exact (Value.isVetted_writable h).bind fun _ hwritable _ => hwritable

theorem readExact_of_writable (h : v.writable interp.levels = .ok ()) :
    ∃ exact, readExact interp v = .ok exact := by
  unfold readExact
  split_ifs
  · exact ⟨none, rfl⟩
  · exact ⟨some v.text, by rw [h]; rfl⟩

theorem exists_readExact_of_isTooDeep (deep : v.IsTooDeep interp.levels) :
    ∃ t, readExact interp v = .error t ∧ t.kind ≠ .value := by
  obtain ⟨t, ht, hkind⟩ := deep
  refine ⟨t, ?_, by rw [hkind]; decide⟩
  unfold readExact
  split_ifs with hnull
  · rw [Value.isNull_iff.1 hnull] at ht
    cases ht
  · rw [ht]
    rfl

/-- Keys can be listed exactly when they are texts; otherwise listing them fails with a failure of
types. -/
theorem exists_joinTexts (keys : List Key) :
    ((∀ k ∈ keys, k.IsText) → ∃ sorted names, Key.sort keys = .ok sorted ∧
      Key.joinTexts sorted = .ok names) ∧
    ((∃ k ∈ keys, ¬k.IsText) → (∃ t, Key.sort keys = .error t ∧ t.kind = .type) ∨
      ∃ sorted t, Key.sort keys = .ok sorted ∧ Key.joinTexts sorted = .error t ∧
        t.kind = .type) := by
  have htext (k : Key) : k.str?.isNone = false ↔ k.IsText := by
    cases k <;> simp [Key.str?, Key.IsText]
  constructor
  · intro h
    obtain ⟨sorted, hsorted, hperm, _⟩ := Key.sort_of_isText h
    have hnone : sorted.findIdx? (fun k => k.str?.isNone) = none :=
      List.findIdx?_eq_none_iff.2 fun k hk => (htext k).2 (h k (hperm.mem_iff.1 hk))
    exact ⟨sorted, _, hsorted, by rw [Key.joinTexts, hnone]⟩
  · rintro ⟨k, hk, hstrange⟩
    rcases hsort : Key.sort keys with t | sorted
    · exact Or.inl ⟨t, rfl, Key.kind_of_sort hsort⟩
    · refine Or.inr ⟨sorted, ?_⟩
      rcases hidx : sorted.findIdx? (fun k => k.str?.isNone) with _ | i
      · have hmem := (Key.perm_of_sort hsort).mem_iff.2 hk
        exact absurd ((htext k).1 (List.findIdx?_eq_none_iff.1 hidx k hmem)) hstrange
      · exact ⟨_, rfl, by rw [Key.joinTexts, hidx], rfl⟩

theorem readConditional_of_scopes {scopes : Value}
    (h : Entries.get? m (.str "scopes") = some scopes) :
    readConditional interp group m = (if (unknownKeys m).isEmpty then do
      let search ← readSearch interp group (patternOf m)
      let names ← readScopes interp group scopes
      let exact ← readExact interp (exactOf m)
      pure ⟨names, search, exact⟩
    else do
      let names ← Key.joinTexts (← Key.sort (unknownKeys m))
      refuse ("Unsupported keys for selector '" ++ group ++ "': " ++ names)) := by
  unfold readConditional
  rw [h]
  rfl

theorem readConditional_of_known {scopes : Value}
    (h : Entries.get? m (.str "scopes") = some scopes) (known : unknownKeys m = []) :
    readConditional interp group m = (do
      let search ← readSearch interp group (patternOf m)
      let names ← readScopes interp group scopes
      let exact ← readExact interp (exactOf m)
      pure ⟨names, search, exact⟩) := by
  rw [readConditional_of_scopes h, if_pos (List.isEmpty_iff.2 known)]

/-- The search of an alternative finishes on every text. -/
def IsSearchable (a : Alternative) : Prop :=
  ∀ p, a.search = some p → ∀ text, ∃ b, p.run text = .ok b

/-- The search of a conditional without a defect is refused with a value failure, or it finishes on
every text as far as the rest of the conditional can be read. -/
theorem isVetted_readSearch {scopes : Value} (treats : Treats interp.engine m)
    (known : unknownKeys m = []) (h : ¬Defect interp m scopes) :
    IsVetted (fun search => ∀ names, scopes? scopes = some names →
      (exactOf m).writable interp.levels = .ok () → ∀ p, search = some p →
        ∀ text, ∃ b, p.run text = .ok b) (readSearch interp group (patternOf m)) := by
  cases hnull : (patternOf m).isNull with
  | true =>
    rw [readSearch, if_pos hnull]
    rintro names - - p ⟨⟩
  | false =>
    cases hcompile : interp.engine.compile (patternOf m) with
    | error t =>
      rw [readSearch_of_error hnull hcompile]
      show (patternFailure group t).kind = .value
      rw [kind_patternFailure]
      split_ifs with hmalformed
      · rfl
      · by_contra hvalue
        exact h (.givenUp known hnull hcompile hmalformed hvalue)
    | ok p =>
      rw [readSearch_of_ok hnull hcompile]
      rintro names hnames hexact _ ⟨⟩
      have documented := treats hnull
      generalize hv : patternOf m = v at documented
      cases documented with
      | text s total => exact total p (hv ▸ hcompile)
      | bytes bs => exact absurd (.bytes known hv hcompile hnames hexact) h
      | other refused => cases refused.symm.trans (hv ▸ hcompile)

/-- **A conditional that is no misfit** is refused with a value failure, or its condition can be
tested. -/
theorem isVetted_readConditional (treats : Treats interp.engine m)
    (h : ¬IsMisfit interp (.map m)) : IsVetted IsSearchable (readConditional interp group m) := by
  rcases hscopes : Entries.get? m (.str "scopes") with _ | scopes
  · unfold readConditional
    rw [hscopes]
    exact rfl
  have hdefect : ¬Defect interp m scopes := fun hd => h (.conditional hscopes hd)
  rw [readConditional_of_scopes hscopes]
  split_ifs with hknown
  · rw [List.isEmpty_iff] at hknown
    refine (isVetted_readSearch treats hknown hdefect).bind fun search heq hsearch => ?_
    have hcompiled := (exists_readSearch_iff group).1 ⟨search, heq⟩
    refine (isVetted_readScopes fun hnone hdeep =>
      hdefect (.deepScopes hknown hcompiled hnone hdeep)).bind fun names _ hnames => ?_
    refine (isVetted_readExact fun hdeep =>
      hdefect (.deepText hknown hcompiled hnames hdeep)).bind fun exact _ hexact => ?_
    exact hsearch names hnames hexact
  · have hall : ∀ k ∈ unknownKeys m, k.IsText := by
      intro k hk
      by_contra hstrange
      exact hdefect (.key (List.mem_of_mem_filter hk) hstrange)
    obtain ⟨sorted, names, hsorted, hnames⟩ := (exists_joinTexts _).1 hall
    rw [hsorted]
    show IsVetted _ (Key.joinTexts sorted >>= _)
    rw [hnames]
    exact rfl

/-- The search of an alternative fails on every text. -/
def IsUnsearchable (a : Alternative) : Prop :=
  ∃ p, a.search = some p ∧ ∀ text, ∃ t, p.run text = .error t

/-- The failure of a search that the engine gives up on is passed on. -/
theorem readSearch_of_givenUp {t : Trace} (present : v.isNull = false)
    (h : interp.engine.compile v = .error t) (hmalformed : t.kind ≠ Pattern.malformed) :
    readSearch interp group v = .error t := by
  rw [readSearch_of_error present h, patternFailure, if_neg hmalformed]

/-- A conditional with a defect fails in another way, or its search fails on every text. -/
theorem readConditional_of_defect {scopes : Value} (treats : Treats interp.engine m)
    (hscopes : Entries.get? m (.str "scopes") = some scopes) (defect : Defect interp m scopes) :
    (∃ t, readConditional interp group m = .error t ∧ t.kind ≠ .value) ∨
      ∃ a, readConditional interp group m = .ok a ∧ IsUnsearchable a := by
  cases defect with
  | key hk hstrange =>
    rename_i k
    have hmem : k ∈ unknownKeys m := by
      refine List.mem_filter.2 ⟨hk, ?_⟩
      cases k with
      | str s => exact absurd ⟨s, rfl⟩ hstrange
      | _ => rfl
    have hknown : ¬(unknownKeys m).isEmpty = true := by
      rw [List.isEmpty_iff]
      exact List.ne_nil_of_mem hmem
    rw [readConditional_of_scopes hscopes, if_neg hknown]
    have htype : FailureKind.type ≠ .value := by decide
    rcases (exists_joinTexts _).2 ⟨k, hmem, hstrange⟩ with
      ⟨t, hsort, ht⟩ | ⟨sorted, t, hsort, hjoin, ht⟩
    · rw [hsort]
      exact Or.inl ⟨t, rfl, ht ▸ htype⟩
    · rw [hsort]
      show (∃ t, Key.joinTexts sorted >>= _ = .error t ∧ _) ∨ _
      rw [hjoin]
      exact Or.inl ⟨t, rfl, ht ▸ htype⟩
  | pattern known present hunwritten =>
    rw [readConditional_of_known hscopes known]
    have documented := treats present
    generalize hv : patternOf m = v at documented present hunwritten
    cases documented with
    | text s => cases hunwritten
    | bytes bs => cases hunwritten
    | @other _ t refused hkind =>
      have hmalformed : t.kind ≠ Pattern.malformed := by
        rw [hkind]
        decide
      rw [readSearch_of_givenUp present refused hmalformed]
      exact Or.inl ⟨t, rfl, by rw [hkind]; decide⟩
  | givenUp known present hcompile hmalformed hvalue =>
    rw [readConditional_of_known hscopes known,
      readSearch_of_givenUp present hcompile hmalformed]
    exact Or.inl ⟨_, rfl, hvalue⟩
  | @bytes bs p names known hbytes hp hnames hexact =>
    have present : (patternOf m).isNull = false := by rw [hbytes]; rfl
    obtain ⟨exact, hread⟩ := readExact_of_writable hexact
    rw [readConditional_of_known hscopes known, readSearch_of_ok present hp,
      readScopes_of_some hnames, hread]
    refine Or.inr ⟨⟨names, some p, exact⟩, rfl, p, rfl, fun text => ?_⟩
    have documented := treats present
    rw [hbytes] at documented hp
    cases documented with
    | bytes _ strict => exact (strict p hp text).imp fun _ => And.left
    | other refused => cases refused.symm.trans hp
  | deepScopes known hp hnone deep =>
    obtain ⟨search, hsearch⟩ := (exists_readSearch_iff group).2 hp
    obtain ⟨t, ht, hvalue⟩ := exists_readScopes_of_isTooDeep group hnone deep
    rw [readConditional_of_known hscopes known, hsearch, ht]
    exact Or.inl ⟨t, rfl, hvalue⟩
  | deepText known hp hnames deep =>
    obtain ⟨search, hsearch⟩ := (exists_readSearch_iff group).2 hp
    obtain ⟨t, ht, hvalue⟩ := exists_readExact_of_isTooDeep deep
    rw [readConditional_of_known hscopes known, hsearch, readScopes_of_some hnames, ht]
    exact Or.inl ⟨t, rfl, hvalue⟩

end Conditionals

/-! ### Reading a table -/

section Tables
variable {interp : Interpreter} {group : String} {v a : Value} {t : ScopeTable}

/-- An alternative that is no misfit; the engine treats its pattern as documented. -/
structure IsFit (interp : Interpreter) (a : Value) : Prop where
  treats : ∀ m, a = .map m → Treats interp.engine m
  fit : ¬IsMisfit interp a

/-- What a group leads to is read one alternative after the other. -/
theorem readAlternatives_eq :
    readAlternatives interp group v = (alternativesIn v).mapM (readAlternative interp group) := by
  have hone (a : Value) : [a].mapM (readAlternative interp group) =
      (do let x ← readAlternative interp group a; pure [x]) := by
    rw [List.mapM_cons, List.mapM_nil]
    rfl
  have htexts (a : Value) (ha : readAlternative interp group a = do
      let scopes ← readScopes interp group a
      pure { scopes }) : [a].mapM (readAlternative interp group) = (do
      let scopes ← readScopes interp group a
      pure [{ scopes }]) := by
    rw [hone, ha]
    cases readScopes interp group a <;> rfl
  cases v with
  | list items =>
    unfold alternativesIn readAlternatives
    dsimp only
    split_ifs
    · exact (htexts _ rfl).symm
    · rfl
  | tuple items =>
    unfold alternativesIn readAlternatives
    dsimp only
    split_ifs
    · exact (htexts _ rfl).symm
    · rfl
  | _ => exact (hone _).symm

/-- Scopes without a condition can be chosen for every text. -/
theorem isSearchable_scopes (scopes : List String) : IsSearchable { scopes } := by
  rintro p ⟨⟩

theorem isVetted_readAlternative (h : IsFit interp a) :
    IsVetted IsSearchable (readAlternative interp group a) := by
  unfold readAlternative
  split
  · exact isVetted_readConditional (h.treats _ rfl) h.fit
  · rename_i hv
    exact (isVetted_readScopes fun hnone hdeep => h.fit (.scopes hv hnone hdeep)).bind
      fun scopes _ _ => isSearchable_scopes scopes

theorem isVetted_readAlternatives (h : ∀ a ∈ alternativesIn v, IsFit interp a) :
    IsVetted (fun as => ∀ a ∈ as, IsSearchable a) (readAlternatives interp group v) := by
  rw [readAlternatives_eq]
  exact IsVetted.mapM fun a ha => isVetted_readAlternative (h a ha)

/-- The searches of all mappings finish on every text. -/
def AllSearchable (t : ScopeTable) : Prop :=
  ∀ key, ∀ r ∈ t.bucket key, ∀ a ∈ r.alternatives, IsSearchable a

theorem AllSearchable.add (h : t.AllSearchable) {as : List Alternative}
    (has : ∀ a ∈ as, IsSearchable a) (text : String) (s : Selector) :
    (t.add text s as).AllSearchable := by
  intro key r hr
  rw [bucket_add] at hr
  split_ifs at hr
  · rcases List.mem_cons.1 ((insertInto_perm _ _).mem_iff.1 hr) with rfl | hr
    · exact has
    · exact h key r hr
  · exact h key r hr

theorem isVetted_readEntry (ht : t.AllSearchable) {e : Key × Value}
    (h : ∀ group, e.1 = .str group → ∀ a ∈ alternativesIn e.2, IsFit interp a) :
    IsVetted AllSearchable (readEntry interp t e) := by
  obtain ⟨k, v⟩ := e
  cases k with
  | str group =>
    refine (isVetted_readAlternatives (h group rfl)).bind fun as _ has => ?_
    refine (isVetted_of_kind fun _ => Selector.kind_of_ofGroup).bind fun members _ _ => ?_
    show (members.foldl (fun t s => t.add s.1 s.2 as) t).AllSearchable
    exact List.foldlRecOn members _ ht fun t ht s _ => ht.add has s.1 s.2
  | _ => exact (isVetted_of_kind fun _ => Key.kind_of_writable).bind fun _ _ _ => rfl

/-- A condition whose search finishes can be tested. -/
theorem exists_applies {a : Alternative} (h : IsSearchable a) (text : String) :
    ∃ b, a.applies text = .ok b := by
  unfold Alternative.applies
  split_ifs
  · exact ⟨false, rfl⟩
  · split
    · exact ⟨true, rfl⟩
    · rename_i search hsearch
      exact h search hsearch text

theorem exists_choose {as : List Alternative} (h : ∀ a ∈ as, IsSearchable a) (text : String) :
    ∃ scopes, Alternative.choose text as = .ok scopes := by
  induction as with
  | nil => exact ⟨none, rfl⟩
  | cons a as ih =>
    obtain ⟨ha, has⟩ := List.forall_mem_cons.1 h
    obtain ⟨b, hb⟩ := exists_applies ha text
    rw [Alternative.choose, hb]
    cases b with
    | true => exact ⟨some a.scopes, rfl⟩
    | false => exact ih has

/-- A table whose searches finish answers for all nodes. -/
theorem AllSearchable.answers (h : t.AllSearchable) : t.Answers := by
  intro root a c source _
  rw [scopesFor, firstScopes_eq_choose]
  have hall : ∀ b ∈ ((t.bucket (c.node.label, c.node.named)).filter fun m =>
      m.selector.fits c).flatMap (·.alternatives), IsSearchable b := by
    intro b hb
    obtain ⟨r, hr, hb⟩ := List.mem_flatMap.1 hb
    exact h _ r (List.mem_of_mem_filter hr) b hb
  obtain ⟨scopes, hscopes⟩ := exists_choose hall (textOf c.node source)
  exact ⟨scopes.getD [], by rw [hscopes]; rfl⟩

/-- **A table without misfits** is refused with a value failure, or it answers for all nodes. -/
theorem isVetted_ofEntries {entries : Entries Key Value} (treats : TreatsAll interp.engine entries)
    (h : ¬HasMisfit interp entries) : IsVetted Answers (ofEntries interp entries) := by
  have hempty : AllSearchable {} := by rintro key r ⟨⟩
  have hread : IsVetted AllSearchable (ofEntries interp entries) := by
    refine IsVetted.foldlM hempty fun t e he ht => isVetted_readEntry ht fun group hk a ha => ?_
    have hmem : (Key.str group, e.2) ∈ entries := hk ▸ he
    exact ⟨fun m hm => treats group e.2 m hmem (hm ▸ ha),
      fun hmisfit => h ⟨group, e.2, a, hmem, ha, hmisfit⟩⟩
  cases hentries : ofEntries interp entries with
  | error t => rwa [hentries] at hread
  | ok t =>
    rw [hentries] at hread
    exact AllSearchable.answers hread

end Tables

/-! ### Nodes that a selector fits -/

/-- A node of a step with copies of a node below it, the last of them at a place. -/
def overNode (s : Step) (place : Option ℕ) (n : Node) : Node :=
  { label := s.label, named := s.named, start := n.start, stop := n.stop,
    children := List.replicate (place.getD 0 + 1) n }

/-- A tree around a node at a place whose parents fit the steps, nearest first. -/
def around (n : Node) (place : Option ℕ) : List Step → Node
  | [] => overNode ⟨"", true, none⟩ place n
  | s :: above => around (overNode s place n) s.place above

/-- Below a node that was made for it, a node sees its parent and its place. -/
theorem cursorAt?_overNode {root : Node} {a : Address} {d : Cursor} {s : Step} {place : Option ℕ}
    {n : Node} (hn : n.attached = true) (hd : root.cursorAt? a = some d)
    (hnode : d.node = overNode s place n) :
    ∃ c, root.cursorAt? (.child (place.getD 0) :: a) = some c ∧ c.node = n ∧
      c.place? = some (place.getD 0) ∧ c.parent? = some d := by
  have hchild : d.node.children[place.getD 0]? = some n := by
    rw [hnode]
    exact List.getElem?_replicate_of_lt (Nat.lt_succ_self _)
  refine ⟨d.toChild (place.getD 0) n, ?_, rfl, ?_, ?_⟩
  · rw [Node.cursorAt?, hd, Option.bind_some, Node.stepCursor?, hchild]
    rfl
  · simp [Cursor.toChild, Cursor.down, Cursor.place?, hn]
  · simp [Cursor.toChild, Cursor.down, Cursor.parent?, hn]

theorem exists_cursorAt?_around (above : List Step) {n : Node} (hn : n.attached = true)
    (place : Option ℕ) :
    ∃ a c, (around n place above).cursorAt? a = some c ∧ c.node = n ∧
      c.place? = some (place.getD 0) ∧ fitAbove c above = true := by
  induction above generalizing n place with
  | nil =>
    have hroot : (Cursor.ofRoot (overNode ⟨"", true, none⟩ place n)).node =
        overNode ⟨"", true, none⟩ place n := rfl
    obtain ⟨c, hc, hnode, hplace, _⟩ := cursorAt?_overNode (a := []) hn rfl hroot
    exact ⟨_, c, hc, hnode, hplace, rfl⟩
  | cons s above ih =>
    obtain ⟨a, d, hd, hdnode, hdplace, hfit⟩ := ih (n := overNode s place n) rfl s.place
    obtain ⟨c, hc, hnode, hplace, hparent⟩ := cursorAt?_overNode hn hd hdnode
    have hs : s.fits d = true := by
      rw [Step.fits, hdnode, hdplace]
      cases s.place <;> simp [overNode]
    refine ⟨_, c, hc, hnode, hplace, ?_⟩
    rw [fitAbove, hparent]
    simp [hs, hfit]

/-- **Every selector fits some node**, and the text of that node may be any. -/
theorem exists_fits (s : Selector) (text : String) :
    ∃ (root : Node) (a : Address) (c : Cursor), root.cursorAt? a = some c ∧ s.fits c = true ∧
      textOf c.node (ofString text) = text := by
  let n : Node :=
    { label := s.target.label, named := s.target.named, start := 0,
      stop := (ofString text).length }
  obtain ⟨a, c, hc, hnode, hplace, hfit⟩ := exists_cursorAt?_around s.above (n := n) rfl
    s.target.place
  have htarget : s.target.fits c = true := by
    rw [Step.fits, hnode, hplace]
    cases s.target.place <;> simp [n]
  refine ⟨_, a, c, hc, by rw [Selector.fits, htarget, hfit]; rfl, ?_⟩
  have hall : Text.Utf8.slice (ofString text) 0 (ofString text).length = ofString text := by
    simp [Text.Utf8.slice]
  exact textOf_eq_of_slice (by rw [hnode]; rfl) (by rw [hnode]) (Nat.zero_le _) le_rfl hall

theorem pieces_ne_nil {sep : Char} {q : Selector.Quoting} {text : List Char}
    {ps : List (List Char)} (h : Selector.pieces sep q text = some ps) : ps ≠ [] := by
  have hextend (c : Char) (qs : List (List Char)) : Selector.extend c qs ≠ [] := by
    cases qs <;> simp [Selector.extend]
  rintro rfl
  unfold Selector.pieces at h
  split at h
  · split_ifs at h
    cases h
  · simp [hextend] at h
  · simp [hextend] at h
  · split_ifs at h <;> simp [hextend] at h

/-- A group that can be read has a selector. -/
theorem ne_nil_of_ofGroup {group : String} {members : List (String × Selector)}
    (h : Selector.ofGroup group = .ok members) : members ≠ [] := by
  obtain ⟨parts, hparts, h⟩ := Except.bind_eq_ok_iff.1 h
  unfold Selector.split at hparts
  split at hparts
  · rename_i ps hps
    cases hparts
    rintro rfl
    have hnil := Except.mapM_eq_ok_iff.1 h
    rw [List.forall₂_nil_right_iff, List.map_eq_nil_iff] at hnil
    exact pieces_ne_nil hps hnil
  · cases hparts

/-! ### The main result -/

section Main
variable {interp : Interpreter} {group : String}

/-- Where the search of one alternative fails, alternatives like it cannot be chosen from. -/
theorem choose_of_isUnsearchable {a : Alternative} (ha : IsUnsearchable a) {as : List Alternative}
    (has : ∀ b ∈ as, b = a) (hne : as ≠ []) :
    ∃ t, Alternative.choose (a.exact.getD "") as = .error t := by
  obtain ⟨p, hp, hfails⟩ := ha
  obtain ⟨t, ht⟩ := hfails (a.exact.getD "")
  have happlies : a.applies (a.exact.getD "") = .error t := by
    unfold Alternative.applies
    rw [hp]
    cases hexact : a.exact with
    | none => simpa [hexact] using ht
    | some text => simpa [hexact] using ht
  cases as with
  | nil => exact absurd rfl hne
  | cons b as =>
    rw [has b List.mem_cons_self, Alternative.choose, happlies]
    exact ⟨t, rfl⟩

/-- A table fails for some node if the search of its only alternative fails. -/
theorem not_answers_of_isUnsearchable {v : Value} {a : Alternative}
    (hv : readAlternatives interp group v = .ok [a]) (ha : IsUnsearchable a)
    {members : List (String × Selector)} (hmembers : Selector.ofGroup group = .ok members) :
    ∃ t, ofEntries interp [(.str group, v)] = .ok t ∧ ¬t.Answers := by
  obtain ⟨t, ht, hmappings⟩ := (ofEntries_singleton hv).1 members hmembers
  refine ⟨t, ht, fun answers => ?_⟩
  obtain ⟨ms, hms, hfiles⟩ := files_of_ofEntries ht
  rw [(mappings_of_ofEntries ht).1, Except.ok.injEq] at hms
  subst hms
  obtain ⟨r, hr⟩ : ∃ r, r ∈ t.mappings := by
    refine List.exists_mem_of_ne_nil _ fun hnil => ne_nil_of_ofGroup hmembers ?_
    have hlen := congrArg List.length (hnil.symm.trans hmappings)
    simpa [numberFrom] using hlen.symm
  obtain ⟨root, addr, c, hc, hfits, htext⟩ := exists_fits r.selector (a.exact.getD "")
  obtain ⟨scopes, hscopes⟩ := answers root addr c _ hc
  rw [scopesFor, firstScopes_eq_choose, filter_bucket_eq_sort hfiles, htext] at hscopes
  set fitting := (t.mappings.filter fun m => m.selector.fits c).insertionSort NotAfter
  have hsame : ∀ m ∈ t.mappings, m.alternatives = [a] := fun m hm =>
    alternatives_of_mem_numberFrom (hmappings ▸ hm)
  have hall : ∀ b ∈ fitting.flatMap (·.alternatives), b = a := by
    intro b hb
    obtain ⟨m, hm, hb⟩ := List.mem_flatMap.1 hb
    rw [hsame m (List.mem_of_mem_filter ((List.mem_insertionSort NotAfter).1 hm))] at hb
    exact List.mem_singleton.1 hb
  have hfit : r ∈ fitting := (List.mem_insertionSort NotAfter).2 (List.mem_filter.2 ⟨hr, hfits⟩)
  have hne : fitting.flatMap (·.alternatives) ≠ [] :=
    List.ne_nil_of_mem (List.mem_flatMap.2 ⟨r, hfit, by rw [hsame r hr]; exact List.mem_cons_self⟩)
  obtain ⟨e, he⟩ := choose_of_isUnsearchable ha hall hne
  rw [he] at hscopes
  cases hscopes

theorem hasMisfit_singleton_iff {v a : Value} (hv : alternativesIn v = [a]) :
    HasMisfit interp [(.str group, v)] ↔ IsMisfit interp a := by
  constructor
  · rintro ⟨group', v', a', hmem, ha', hmisfit⟩
    obtain ⟨-, rfl⟩ := Prod.mk.inj (List.mem_singleton.1 hmem)
    rw [hv] at ha'
    rwa [← List.mem_singleton.1 ha']
  · exact fun h => ⟨group, v, a, List.mem_singleton_self _, hv ▸ List.mem_singleton_self a, h⟩

/-- A misfit fails in another way than with a value failure, or its search fails on every text. -/
theorem readAlternative_of_isMisfit (group : String) {v : Value}
    (treats : ∀ m, v = .map m → Treats interp.engine m) (h : IsMisfit interp v) :
    (∃ t, readAlternative interp group v = .error t ∧ t.kind ≠ .value) ∨
      ∃ a, readAlternative interp group v = .ok a ∧ IsUnsearchable a := by
  cases h with
  | conditional hscopes defect => exact readConditional_of_defect (treats _ rfl) hscopes defect
  | scopes hv hnone deep =>
    obtain ⟨t, ht, hvalue⟩ := exists_readScopes_of_isTooDeep group hnone deep
    refine .inl ⟨t, ?_, hvalue⟩
    unfold readAlternative
    split
    · exact absurd rfl (hv _)
    · rw [ht]
      rfl

/-- A misfit escapes the validation if it is the only alternative under selectors that can be
read. -/
theorem not_isVetted_of_isMisfit {v a : Value} (hv : alternativesIn v = [a])
    (treats : ∀ m, a = .map m → Treats interp.engine m) (h : IsMisfit interp a)
    {members : List (String × Selector)} (hmembers : Selector.ofGroup group = .ok members) :
    ¬IsVetted Answers (ofEntries interp [(.str group, v)]) := by
  intro hvetted
  have hread : readAlternatives interp group v = (do
      let x ← readAlternative interp group a
      pure [x]) := by
    rw [readAlternatives_eq, hv, List.mapM_cons, List.mapM_nil]
    rfl
  rcases readAlternative_of_isMisfit group treats h with
    ⟨t, ht, hkind⟩ | ⟨x, hx, hunsearchable⟩
  · have herror : ofEntries interp [(.str group, v)] = .error t := by
      rw [ofEntries, List.foldlM_cons, readEntry]
      dsimp only
      rw [hread, ht]
      rfl
    rw [herror] at hvetted
    exact hkind hvetted
  · rw [hx] at hread
    obtain ⟨t, ht, hanswers⟩ := not_answers_of_isUnsearchable hread hunsearchable hmembers
    rw [ht] at hvetted
    exact hanswers hvetted

/-- **Only misfits escape the validation.** With an engine that treats the patterns of a table as
documented, the table is refused with a value failure, or it answers for every node of every tree,
if none of its alternatives is a misfit. If the table is one alternative under selectors that can be
read, it does so only then. -/
theorem vetted_unless_misfit (interp : Interpreter) (entries : Entries Key Value)
    (treats : TreatsAll interp.engine entries) :
    (¬HasMisfit interp entries → IsVetted Answers (ofEntries interp entries)) ∧
      ∀ (group : String) (members : List (String × Selector)) (v a : Value),
        entries = [(.str group, v)] → alternativesIn v = [a] →
          Selector.ofGroup group = .ok members →
            (IsVetted Answers (ofEntries interp entries) ↔ ¬HasMisfit interp entries) := by
  refine ⟨isVetted_ofEntries treats, fun group members v a hentries hv hmembers =>
    ⟨fun hvetted hmisfit => ?_, isVetted_ofEntries treats⟩⟩
  subst hentries
  have ha : ∀ m, a = .map m → Treats interp.engine m := fun m hm =>
    treats group v m (List.mem_singleton_self _) (by rw [hv, hm]; exact List.mem_singleton_self _)
  exact not_isVetted_of_isMisfit hv ha ((hasMisfit_singleton_iff hv).1 hmisfit) hmembers hvetted

/-- A table with a condition that can be tested. -/
def testedTable : Entries Key Value :=
  [(.str "identifier", .list [.map [(.str "match", .str "^[A-Z]"), (.str "scopes", .str "type")],
    .str "variable"])]

/-- A table with a number for a pattern. -/
def numericTable : Entries Key Value :=
  [(.str "identifier", .map [(.str "match", .int 5), (.str "scopes", .str "variable")])]

/-- A table with a pattern over bytes. -/
def bytesTable : Entries Key Value :=
  [(.str "identifier", .map [(.str "match", .scalar (.bytes [0x78])),
    (.str "scopes", .str "variable")])]

/-- A table with nested lists for scopes. -/
def nestedTable (n : ℕ) : Entries Key Value :=
  [(.str "identifier", .map [(.str "scopes", Value.nestedLists n)])]

/-- Nested lists are no scopes, and the refusal of too many of them cannot show them. -/
theorem hasMisfit_nestedTable {n : ℕ} (h : interp.levels ≤ n) :
    HasMisfit interp (nestedTable n) := by
  have hnone : scopes? (Value.nestedLists n) = none := by
    cases n with
    | zero => rfl
    | succ n => cases n <;> rfl
  have deep : (Value.nestedLists n).IsTooDeep interp.levels :=
    ⟨_, Value.writable_nestedLists h, rfl⟩
  exact (hasMisfit_singleton_iff rfl).2 (.conditional rfl (.deepScopes rfl (.inl rfl) hnone deep))

theorem vetted_unless_misfit_testedTable :
    (¬HasMisfit .usual testedTable ∧ IsVetted Answers (ofEntries .usual testedTable)) ∧
      (HasMisfit .usual numericTable ∧ ¬IsVetted Answers (ofEntries .usual numericTable)) ∧
      ¬IsVetted Answers (ofEntries .usual (nestedTable Interpreter.usual.levels)) := by
  have treats (entries : Entries Key Value) : TreatsAll Interpreter.usual.engine entries :=
    fun _ _ m _ _ _ => Pattern.documents_builtin (patternOf m)
  have fit : ¬HasMisfit .usual testedTable := by
    rintro ⟨group, v, a, hv, ha, hmisfit⟩
    obtain ⟨-, rfl⟩ := Prod.mk.inj (List.mem_singleton.1 hv)
    have hcases : a = .map [(.str "match", .str "^[A-Z]"), (.str "scopes", .str "type")] ∨
        a = .str "variable" := by
      simpa [alternativesIn, Value.str?] using ha
    rcases hcases with rfl | rfl
    · cases hmisfit with
      | conditional hscopes hdefect =>
        cases hscopes
        cases hdefect with
        | key hk hstrange =>
          refine hstrange ?_
          simp only [Entries.keys, List.map_cons, List.map_nil, List.mem_cons, List.not_mem_nil,
            or_false] at hk
          rcases hk with rfl | rfl <;> exact ⟨_, rfl⟩
        | pattern _ _ hunwritten => cases hunwritten
        | givenUp _ _ refused => cases refused
        | bytes _ hbytes => cases hbytes
        | deepScopes _ _ hnone => cases hnone
        | deepText _ _ _ deep =>
          obtain ⟨t, ⟨⟩, -⟩ := deep
      | scopes hv => exact hv _ rfl
    · cases hmisfit with
      | scopes _ hnone => cases hnone
  have numeric : HasMisfit .usual numericTable :=
    (hasMisfit_singleton_iff rfl).2 (.conditional rfl (.pattern rfl rfl rfl))
  have nested (n : ℕ) (h : Interpreter.usual.levels ≤ n) :
      ¬IsVetted Answers (ofEntries .usual (nestedTable n)) := fun hvetted =>
    ((vetted_unless_misfit .usual (nestedTable n) (treats _)).2 _ _ _ _ rfl rfl rfl).1 hvetted
      (hasMisfit_nestedTable h)
  refine ⟨⟨fit, (vetted_unless_misfit .usual testedTable (treats _)).1 fit⟩,
    ⟨numeric, fun hvetted => ?_⟩, nested _ le_rfl⟩
  exact ((vetted_unless_misfit .usual numericTable (treats _)).2 _ _ _ _ rfl rfl rfl).1 hvetted
    numeric

/-- A number for a pattern fails with a failure of types. A pattern over bytes is accepted, and it
fails with one when a node is asked for. -/
theorem misfits_fail_with_types :
    (∃ t, ofEntries .usual numericTable = .error t ∧ t.kind = .type) ∧
      ∃ t, ofEntries .usual bytesTable = .ok t ∧ ¬t.Answers := by
  refine ⟨⟨_, rfl, rfl⟩, _, rfl, fun answers => ?_⟩
  obtain ⟨scopes, hscopes⟩ := answers { label := "identifier", start := 0, stop := 1 } [] _
    (ofString "x") rfl
  cases hscopes

end Main

end ScopeTable
end CodeHighlight
