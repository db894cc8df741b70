import CodeHighlight.Packages.Source
import CodeHighlight.Proofs.CheckedFields
import CodeHighlight.Proofs.Outcomes

/-!
# Where the grammars of a package come from

Main statement: `load_law`. A package gives the grammars of its first source, entry by entry, or it
fails as a package. Only an import that crashes, for another reason than that a module cannot be
imported, is not reported as a failure of the package (`relative_module_crashes`).

Each stage of the loader has its own lemma: what it gives, and with which failures it ends. `Offers`
says what a module offers, without the order in which the loader looks for it.
-/

namespace CodeHighlight

/-- What a member gives when it is used: a value gives itself, and what can be called gives the
result of a call. -/
inductive Member.Gives : Member → Except Trace Value → Prop
  | value (v : Value) : Gives (.value v) (.ok v)
  | call (result : Except Trace Value) : Gives (.function result) result
  | parser (parse : Parser) : Gives (.parser parse) (.ok (.thing "PyCapsule" "capsule object"))

/-- A member that can be called. -/
def Member.IsCallable (m : Member) : Prop := ∀ v, m ≠ .value v

namespace Module

/-- A module with a function that loads its grammars. -/
def HasLoader (m : Module) : Prop :=
  ∃ member, Entries.get? m.members "load_grammars" = some member ∧ member.IsCallable

/-- A module with a member that holds its grammars. -/
def HasGrammars (m : Module) : Prop :=
  ∃ member, Entries.get? m.members "GRAMMARS" = some member ∧ member ≠ .value .null

end Module

namespace Source
variable {supply : Supply} {i : Identifier} {m : Module} {result : Except Trace Value} {t : Trace}

/-- What a module offers under an identifier: what the named member gives or, when none is named,
what the first of these gives that the module has: the function `load_grammars`, the member
`GRAMMARS`, the directory of descriptors of a package. -/
inductive Offers (supply : Supply) (i : Identifier) (m : Module) : Except Trace Value → Prop
  | named {member : Member} {result : Except Trace Value} (hnamed : i.member ≠ "")
      (hmember : m.member? i.moduleName i.member = some member) (hgives : member.Gives result) :
      Offers supply i m result
  | loaded {member : Member} {result : Except Trace Value} (hunnamed : i.member = "")
      (hmember : Entries.get? m.members "load_grammars" = some member)
      (hcallable : member.IsCallable) (hgives : member.Gives result) : Offers supply i m result
  | held {member : Member} {result : Except Trace Value} (hunnamed : i.member = "")
      (hloader : ¬m.HasLoader) (hmember : Entries.get? m.members "GRAMMARS" = some member)
      (hnull : member ≠ .value .null) (hgives : member.Gives result) : Offers supply i m result
  | declared {entries : List (String × Resource)} (hunnamed : i.member = "")
      (hloader : ¬m.HasLoader) (hgrammars : ¬m.HasGrammars) (hpackage : m.isPackage = true)
      (hentries : m.descriptors = some entries) :
      Offers supply i m ((Directory.grammars (.ofSupply supply) entries).map asValue)

/-- The import of the module fails, and not because a module cannot be imported. -/
def Crashes (modules : Modules) (i : Identifier) (t : Trace) : Prop :=
  i.moduleName ≠ "" ∧ modules.load i.moduleName = .error t ∧ t.kind.isImport = false

/-! ### Importing -/

theorem kind_of_refuse {α : Type} {message : String}
    (h : i.refuse message = (.error t : Except Trace α)) : t.kind = .grammarPackage := by
  cases h
  rfl

theorem importModule_eq_ok_iff {modules : Modules} :
    importModule modules i = .ok m ↔ i.moduleName ≠ "" ∧ modules.load i.moduleName = .ok m := by
  unfold importModule
  by_cases hname : i.moduleName = ""
  · rw [if_pos (by simpa using hname)]
    constructor
    · intro h
      cases h
    · exact fun h => absurd hname h.1
  · rw [if_neg (by simpa using hname), Except.mapError_eq_ok_iff]
    exact ⟨fun h => ⟨hname, h⟩, And.right⟩

theorem importModule_of_crashes {modules : Modules} (h : Crashes modules i t) :
    importModule modules i = .error t := by
  obtain ⟨hname, hload, hkind⟩ := h
  rw [importModule, if_neg (by simpa using hname), hload]
  exact congrArg Except.error (if_neg (by rw [hkind]; exact Bool.false_ne_true))

theorem kind_of_importModule {modules : Modules} (h : importModule modules i = .error t) :
    t.kind = .grammarPackage ∨ Crashes modules i t := by
  unfold importModule at h
  split_ifs at h with hname
  · exact .inl (kind_of_refuse h)
  · obtain ⟨q, hq, h⟩ := Except.mapError_eq_error_iff.1 h
    split_ifs at h with hkind
    · rw [← h]
      exact .inl (Trace.kind_raiseFrom _ _)
    · rw [← h]
      exact .inr ⟨by simpa using hname, hq, Bool.eq_false_of_not_eq_true hkind⟩

/-! ### Sources -/

theorem provide_ofMember_iff {member : Member} :
    (ofMember member).provide supply = result ↔ member.Gives result := by
  constructor
  · rintro rfl
    cases member with
    | value v => exact .value v
    | function result => exact .call result
    | parser parse => exact .parser parse
  · rintro (_ | _ | _) <;> rfl

theorem loading?_eq_some {member : Member}
    (hmember : Entries.get? m.members "load_grammars" = some member)
    (hcallable : member.IsCallable) : loading? m = some (ofMember member) := by
  unfold loading?
  rw [hmember]
  cases member with
  | value v => exact absurd rfl (hcallable v)
  | function result => rfl
  | parser parse => rfl

theorem loading?_eq_none (h : ¬m.HasLoader) : loading? m = none := by
  unfold loading?
  cases hmember : Entries.get? m.members "load_grammars" with
  | none => rfl
  | some member =>
    cases member with
    | value v => rfl
    | function result => exact absurd ⟨_, hmember, fun v hv => by cases hv⟩ h
    | parser parse => exact absurd ⟨_, hmember, fun v hv => by cases hv⟩ h

theorem holding?_eq_some {member : Member}
    (hmember : Entries.get? m.members "GRAMMARS" = some member) (hnull : member ≠ .value .null) :
    holding? m = some (ofMember member) := by
  unfold holding?
  rw [hmember]
  cases member with
  | value v =>
    show (if v.isNull then none else some (Source.value v)) = _
    rw [if_neg fun h => hnull (by rw [Value.isNull_iff.1 h])]
    rfl
  | function result => rfl
  | parser parse => rfl

theorem holding?_eq_none (h : ¬m.HasGrammars) : holding? m = none := by
  unfold holding?
  cases hmember : Entries.get? m.members "GRAMMARS" with
  | none => rfl
  | some member =>
    have hnull : member = .value .null := by
      by_contra hnull
      exact h ⟨member, hmember, hnull⟩
    rw [hnull]
    rfl

/-- The first source of a module gives what the module offers when no member is named. -/
theorem exists_ofModule?_iff (hunnamed : i.member = "") :
    (∃ source, ofModule? m = some source ∧ source.provide supply = result) ↔
      Offers supply i m result := by
  unfold ofModule?
  constructor
  · rintro ⟨source, hsource, hresult⟩
    by_cases hloader : m.HasLoader
    · obtain ⟨member, hmember, hcallable⟩ := hloader
      rw [loading?_eq_some hmember hcallable, Option.some_or] at hsource
      cases hsource
      exact .loaded hunnamed hmember hcallable (provide_ofMember_iff.1 hresult)
    rw [loading?_eq_none hloader, Option.none_or] at hsource
    by_cases hgrammars : m.HasGrammars
    · obtain ⟨member, hmember, hnull⟩ := hgrammars
      rw [holding?_eq_some hmember hnull, Option.some_or] at hsource
      cases hsource
      exact .held hunnamed hloader hmember hnull (provide_ofMember_iff.1 hresult)
    rw [holding?_eq_none hgrammars, Option.none_or, declaring?] at hsource
    split_ifs at hsource with hpackage
    · obtain ⟨entries, hentries, rfl⟩ := Option.map_eq_some_iff.1 hsource
      rw [← hresult]
      exact .declared hunnamed hloader hgrammars hpackage hentries
  · intro h
    cases h with
    | named hnamed => exact absurd hunnamed hnamed
    | loaded _ hmember hcallable hgives =>
      rw [loading?_eq_some hmember hcallable]
      exact ⟨_, rfl, provide_ofMember_iff.2 hgives⟩
    | held _ hloader hmember hnull hgives =>
      rw [loading?_eq_none hloader, holding?_eq_some hmember hnull]
      exact ⟨_, rfl, provide_ofMember_iff.2 hgives⟩
    | declared _ hloader hgrammars hpackage hentries =>
      rw [loading?_eq_none hloader, holding?_eq_none hgrammars, declaring?, if_pos hpackage,
        hentries]
      exact ⟨_, rfl, rfl⟩

/-- The source that an identifier names in its module. -/
def sourceIn? (i : Identifier) (m : Module) : Option Source :=
  if i.member.isEmpty then ofModule? m else (m.member? i.moduleName i.member).map ofMember

theorem exists_sourceIn?_iff :
    (∃ source, sourceIn? i m = some source ∧ source.provide supply = result) ↔
      Offers supply i m result := by
  unfold sourceIn?
  by_cases hunnamed : i.member = ""
  · rw [if_pos (by simpa using hunnamed)]
    exact exists_ofModule?_iff hunnamed
  · rw [if_neg (by simpa using hunnamed)]
    simp only [Option.map_eq_some_iff]
    constructor
    · rintro ⟨_, ⟨member, hmember, rfl⟩, hresult⟩
      exact .named hunnamed hmember (provide_ofMember_iff.1 hresult)
    · intro h
      cases h with
      | named _ hmember hgives => exact ⟨_, ⟨_, hmember, rfl⟩, provide_ofMember_iff.2 hgives⟩
      | loaded h => exact absurd h hunnamed
      | held h => exact absurd h hunnamed
      | declared h => exact absurd h hunnamed

/-- The module is imported first; when nothing is found in it, the package is refused. -/
theorem find_eq (modules : Modules) (i : Identifier) :
    ∃ refusal : Module → Trace, (∀ m, (refusal m).kind = .grammarPackage) ∧
      find modules i = importModule modules i >>= fun m =>
        (sourceIn? i m).elim (.error (refusal m)) .ok := by
  by_cases hunnamed : i.member.isEmpty = true
  · refine ⟨fun _ => .ofFailure (i.failure
      "expected load_grammars(), GRAMMARS, or a grammars/ directory"), fun _ => rfl, ?_⟩
    unfold find
    congr 1
    funext m
    rw [sourceIn?, if_pos hunnamed, if_pos hunnamed]
    cases ofModule? m <;> rfl
  · refine ⟨fun _ => missingMember i, fun _ => Trace.kind_raiseFrom _ _, ?_⟩
    unfold find
    congr 1
    funext m
    rw [sourceIn?, if_neg hunnamed, if_neg hunnamed]
    cases m.member? i.moduleName i.member <;> rfl

theorem find_eq_ok_iff {modules : Modules} {source : Source} :
    find modules i = .ok source ↔ ∃ m, i.moduleName ≠ "" ∧ modules.load i.moduleName = .ok m ∧
      sourceIn? i m = some source := by
  obtain ⟨refusal, -, hfind⟩ := find_eq modules i
  rw [hfind]
  simp only [Except.bind_eq_ok_iff, importModule_eq_ok_iff, and_assoc]
  refine exists_congr fun m => and_congr_right fun _ => and_congr_right fun _ => ?_
  cases sourceIn? i m <;> simp

theorem find_of_crashes {modules : Modules} (h : Crashes modules i t) :
    find modules i = .error t := by
  obtain ⟨refusal, -, hfind⟩ := find_eq modules i
  rw [hfind, importModule_of_crashes h]
  rfl

theorem kind_of_find {modules : Modules} (h : find modules i = .error t) :
    t.kind = .grammarPackage ∨ Crashes modules i t := by
  obtain ⟨refusal, hrefusal, hfind⟩ := find_eq modules i
  rw [hfind] at h
  rcases Except.bind_eq_error_iff.1 h with himport | ⟨m, -, hm⟩
  · exact kind_of_importModule himport
  · cases hsource : sourceIn? i m with
    | some source =>
      rw [hsource] at hm
      cases hm
    | none =>
      rw [hsource] at hm
      cases hm
      exact .inl (hrefusal m)

/-! ### Grammars -/

theorem entry_eq_ok_iff {e : Key × Value} {e' : String × Grammar} :
    entry i e = .ok e' ↔ e = (.str e'.1, .grammar e'.2) ∧ e'.1 ≠ "" := by
  constructor
  · intro h
    unfold entry at h
    split at h
    · rename_i key hkey
      split_ifs at h with hempty
      · cases h
      split at h
      · rename_i g hg
        cases h
        exact ⟨Prod.ext hkey hg, by simpa using hempty⟩
      · cases h
    · cases h
  · rintro ⟨rfl, hempty⟩
    exact if_neg (by simpa using hempty)

/-- Grammars are read from a value exactly when it is theirs and none of their keys is empty. -/
theorem grammarsOf_eq_ok_iff {v : Value} {gs : Entries String Grammar} :
    grammarsOf i v = .ok gs ↔ v = asValue gs ∧ ∀ e ∈ gs, e.1 ≠ "" := by
  have hentries : ∀ es : List (Key × Value), es.mapM (entry i) = .ok gs ↔
      es = gs.map (fun e => (.str e.1, .grammar e.2)) ∧ ∀ e ∈ gs, e.1 ≠ "" := by
    intro es
    rw [Except.mapM_eq_ok_iff]
    simp only [entry_eq_ok_iff]
    constructor
    · intro h
      induction h with
      | nil => exact ⟨rfl, fun e he => by cases he⟩
      | cons he _ ih =>
        exact ⟨by rw [he.1, ih.1, List.map_cons], List.forall_mem_cons.2 ⟨he.2, ih.2⟩⟩
    · rintro ⟨rfl, hkeys⟩
      rw [List.forall₂_map_left_iff, List.forall₂_same]
      exact fun e he => ⟨rfl, hkeys e he⟩
  unfold grammarsOf asValue
  split
  · rw [hentries, Value.map.injEq]
  · rename_i hmap
    constructor
    · intro h
      cases h
    · rintro ⟨rfl, -⟩
      exact absurd rfl (hmap _)

theorem kind_of_grammarsOf {v : Value} (h : grammarsOf i v = .error t) :
    t.kind = .grammarPackage := by
  have hentry : ∀ e : Key × Value, entry i e = .error t → t.kind = .grammarPackage := by
    intro e he
    unfold entry at he
    split at he
    · split_ifs at he
      · exact kind_of_refuse he
      · split at he
        · cases he
        · exact kind_of_refuse he
    · exact kind_of_refuse he
  unfold grammarsOf at h
  split at h
  · obtain ⟨e, -, he⟩ := Except.exists_of_mapM_eq_error h
    exact hentry e he
  · exact kind_of_refuse h

theorem kind_inPackage (h : (inPackage i t).kind.isOrdinary = true) :
    (inPackage i t).kind = .grammarPackage := by
  unfold inPackage at h ⊢
  split_ifs at h ⊢ with hkind
  · exact Trace.kind_raiseFrom _ _
  · by_contra hne
    exact hkind (by rw [h, Bool.true_and, bne_iff_ne]; exact hne)

theorem load_of_crashes {text : String} (h : Crashes supply.modules (Identifier.ofText text) t) :
    load supply text = .error t := by
  show (find supply.modules (Identifier.ofText text) >>= _) = _
  rw [find_of_crashes h]
  rfl

/-! ### The main result -/

/-- **The law of package loading.** Let an identifier be given as a text.

* A package gives grammars exactly when its module can be imported and offers these grammars, entry
  by entry and in order, under keys none of which is empty.
* Otherwise it fails, and every failure other than an interruption is one of the package, unless
  the import of its module crashes.
* When the import crashes, its own failure comes out. -/
theorem load_law (supply : Supply) (text : String) :
    let i := Identifier.ofText text
    (∀ gs, load supply text = .ok gs ↔
      ∃ m, i.moduleName ≠ "" ∧ supply.modules.load i.moduleName = .ok m ∧
        Offers supply i m (.ok (asValue gs)) ∧ ∀ e ∈ gs, e.1 ≠ "") ∧
    (∀ t, load supply text = .error t → t.kind.isOrdinary = true →
      t.kind = .grammarPackage ∨ Crashes supply.modules i t) ∧
    ∀ t, Crashes supply.modules i t → load supply text = .error t := by
  intro i
  refine ⟨fun gs => ?_, fun t ht hordinary => ?_, fun t hcrash => ?_⟩
  · show (find supply.modules i >>= _) = _ ↔ _
    simp only [Except.bind_eq_ok_iff, Except.mapError_eq_ok_iff, grammarsOf_eq_ok_iff,
      find_eq_ok_iff, ← exists_sourceIn?_iff]
    constructor
    · rintro ⟨source, ⟨m, hname, hload, hsource⟩, _, hprovide, rfl, hkeys⟩
      exact ⟨m, hname, hload, ⟨source, hsource, hprovide⟩, hkeys⟩
    · rintro ⟨m, hname, hload, ⟨source, hsource, hprovide⟩, hkeys⟩
      exact ⟨source, ⟨m, hname, hload, hsource⟩, _, hprovide, rfl, hkeys⟩
  · have hstages : find supply.modules i = .error t ∨
        ∃ source, find supply.modules i = .ok source ∧
          ((source.provide supply).mapError (inPackage i) >>= grammarsOf i) = .error t :=
      Except.bind_eq_error_iff.1 ht
    rcases hstages with hfind | ⟨source, -, hrest⟩
    · exact kind_of_find hfind
    rcases Except.bind_eq_error_iff.1 hrest with hprovide | ⟨v, -, hread⟩
    · obtain ⟨q, -, rfl⟩ := Except.mapError_eq_error_iff.1 hprovide
      exact .inl (kind_inPackage hordinary)
    · exact .inl (kind_of_grammarsOf hread)
  · exact load_of_crashes hcrash

/-- A relative name and a module that fails while it is imported crash: neither failure is one of
the package. -/
theorem relative_module_crashes :
    (∃ t, load {} ".x" = .error t ∧ t.kind.isOrdinary = true ∧ t.kind ≠ .grammarPackage) ∧
      ∃ t, load { modules := [("x", .error (.plain .runtime "no binding"))] } "x" = .error t ∧
        t.kind.isOrdinary = true ∧ t.kind ≠ .grammarPackage := by
  have hescapes : ∀ supply text,
      Except.failsWith (fun t => t.kind.isOrdinary && t.kind != .grammarPackage)
        (load supply text) = true →
      ∃ t, load supply text = .error t ∧ t.kind.isOrdinary = true ∧ t.kind ≠ .grammarPackage := by
    intro supply text h
    simpa only [Except.failsWith_iff, Bool.and_eq_true, bne_iff_ne] using h
  exact ⟨hescapes _ _ (by decide +kernel), hescapes _ _ (by decide +kernel)⟩

end Source
end CodeHighlight
