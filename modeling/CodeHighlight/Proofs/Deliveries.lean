import CodeHighlight.Assembly.Load
import CodeHighlight.Config
import CodeHighlight.Proofs.KeyOrder
import CodeHighlight.Proofs.Outcomes
import Mathlib.Tactic

/-!
# Deliveries of an orderly loader

An orderly loader delivers mappings whose keys are texts, or fails with an ordinary failure. A load
of such a loader gives grammars under texts, or it fails with a failure of its package
(`Load.outcome_spec`). Texts can be put in order, so that the languages of every registry that is
merged from such grammars are its keys in order (`Registry.languages_build`).
-/

namespace CodeHighlight

/-- All keys are texts. -/
def Entries.IsTextual {α : Type} (es : Entries Key α) : Prop := ∀ k ∈ Entries.keys es, k.IsText

/-! ### Registries under texts -/

namespace Entries
variable {α β : Type}

theorem isTextual_nil : IsTextual ([] : Entries Key α) := by simp [IsTextual, keys]

theorem IsTextual.insert {es : Entries Key α} (h : IsTextual es) {k : Key} (hk : k.IsText) (v : α) :
    IsTextual (insert es k v) := by
  induction es with
  | nil => simpa [IsTextual, Entries.insert, keys] using hk
  | cons e es ih =>
    obtain ⟨he, hes⟩ := List.forall_mem_cons.1 (h : ∀ q ∈ e.1 :: keys es, q.IsText)
    simp only [Entries.insert]
    split_ifs with hq
    · exact List.forall_mem_cons.2 ⟨he, hes⟩
    · exact List.forall_mem_cons.2 ⟨he, ih hes⟩

theorem IsTextual.insertNew {es : Entries Key α} (h : IsTextual es) {k : Key} (hk : k.IsText)
    (v : α) : IsTextual (insertNew es k v) := by
  unfold Entries.insertNew
  split_ifs
  · exact h
  · exact h.insert hk v

theorem IsTextual.mapValues {es : Entries Key α} (h : IsTextual es) (f : α → β) :
    IsTextual (mapValues f es) := by
  have hkeys : keys (Entries.mapValues f es) = keys es := by simp [Entries.mapValues, keys]
  unfold IsTextual
  rwa [hkeys]

end Entries

namespace Registry
open Entries (IsTextual)

theorem isTextual_addPackage {r package : Registry} (precedence : Precedence) (hr : IsTextual r)
    (hp : IsTextual package) : IsTextual (addPackage precedence r package) := by
  unfold addPackage
  induction package generalizing r with
  | nil => exact hr
  | cons e package ih =>
    obtain ⟨he, hp⟩ := List.forall_mem_cons.1 (hp : ∀ q ∈ e.1 :: Entries.keys package, q.IsText)
    rw [List.foldl_cons]
    cases precedence with
    | last => exact ih (hr.insert he e.2) hp
    | first => exact ih (hr.insertNew he e.2) hp

theorem isTextual_foldl_addPackage {r : Registry} {loaded : List Registry} (precedence : Precedence)
    (hr : IsTextual r) (hl : ∀ p ∈ loaded, IsTextual p) :
    IsTextual (loaded.foldl (addPackage precedence) r) := by
  induction loaded generalizing r with
  | nil => exact hr
  | cons p loaded ih =>
    obtain ⟨hp, hl⟩ := List.forall_mem_cons.1 hl
    exact ih (isTextual_addPackage precedence hr hp) hl

/-- The languages of a registry that is merged from grammars under texts are its keys, in order. -/
theorem languages_build (c : Config) {loaded : List Registry} (hl : ∀ p ∈ loaded, IsTextual p) :
    ∃ keys, languages (build c.explicit loaded c.precedence) = .ok keys ∧
      keys.Perm (Entries.keys (build c.explicit loaded c.precedence)) ∧ Key.InOrder keys := by
  have hexplicit : IsTextual c.explicit := by
    intro k hk
    simp only [Entries.keys, Config.explicit, List.map_map, List.mem_map, Function.comp_apply] at hk
    obtain ⟨e, _, rfl⟩ := hk
    exact ⟨e.1, rfl⟩
  have hmerged := isTextual_foldl_addPackage c.precedence Entries.isTextual_nil hl
  refine Key.sort_of_isText ?_
  -- the explicit grammars are written like those of a package that comes last
  exact isTextual_addPackage .last hmerged hexplicit

end Registry

/-! ### Loads -/

/-- The delivery is a mapping under texts, something that is not a mapping, or an ordinary
failure. -/
def Delivery.IsOrderly (d : Delivery) : Prop :=
  match d.result with
  | .ok (.map entries) => Entries.IsTextual entries
  | .ok _ => True
  | .error t => t.kind.isOrdinary = true

/-- All deliveries of the loader are orderly. -/
def Loader.IsOrderly (loader : Loader) : Prop := ∀ package n, (loader package n).IsOrderly

/-- A loader that takes three ticks for the package `slow` and none for others. -/
def slowLoader : Loader := fun package _ =>
  { ticks := if package = "slow" then 3 else 0
    result := .ok (.map [(.str package, .scalar .null)]) }

theorem isOrderly_slowLoader : Loader.IsOrderly slowLoader := by
  intro package n k hk
  exact ⟨package, by simpa [Entries.keys] using hk⟩

/-- The package of an event that reports a load. -/
def Event.package? (e : Event) : Option String :=
  if e.name = "grammar_package_loaded" then
    match Entries.get? e.payload (.str "package") with
    | some (.scalar (.str p)) => some p
    | _ => none
  else none

/-- The event reports that the registry is complete. -/
def Event.isReady (e : Event) : Bool := e.name = "registry_ready"

@[simp] theorem Event.package?_packageLoaded (package : String) (keys : List Key) :
    (packageLoaded package keys).package? = some package := by
  rfl

@[simp] theorem Event.isReady_packageLoaded (package : String) (keys : List Key) :
    (packageLoaded package keys).isReady = false := by
  rfl

namespace Load

/-- The load succeeds. -/
def Succeeds (l : Load) : Prop := ∃ r e, l.outcome = .ok (r, e)

theorem kind_loaderFailure {package : String} {t : Trace} (h : t.kind.isOrdinary = true) :
    (loaderFailure package t).kind = .initialization := by
  rw [loaderFailure, if_pos h]
  exact Trace.kind_raiseFrom _ _

/-- A load that answers when it is stopped fails with a failure of its package. -/
theorem kind_of_stopped? {loads : List Load} {t : Trace} (h : stopped? loads = some t) :
    t.kind = .initialization := by
  obtain ⟨l, -, hl⟩ := Option.bind_eq_some_iff.1 h
  obtain ⟨answer, -, rfl⟩ := Option.map_eq_some_iff.1 hl
  exact kind_loaderFailure answer.property

/-- **A load of an orderly loader** gives grammars under texts and reports its package, or it fails
with a failure of initialization. -/
theorem outcome_spec {l : Load} (h : l.delivery.IsOrderly) :
    (∃ r keys, l.outcome = .ok (r, .packageLoaded l.package keys) ∧ Entries.IsTextual r) ∨
    ∃ t, l.outcome = .error t ∧ t.kind = .initialization := by
  unfold Delivery.IsOrderly at h
  unfold outcome
  split at h
  · rename_i entries heq
    obtain ⟨keys, hkeys, _⟩ := Key.sort_of_isText h
    rw [heq]
    simp only [hkeys]
    exact Or.inl ⟨_, keys, rfl, Entries.IsTextual.mapValues h _⟩
  · rename_i v hv heq
    refine Or.inr ⟨noMapping l.package, ?_, rfl⟩
    rw [heq]
    cases v with
    | map entries => exact absurd rfl (hv entries)
    | _ => rfl
  · rename_i t heq
    exact Or.inr ⟨loaderFailure l.package t, by rw [heq], kind_loaderFailure h⟩

theorem kind_of_firstFailure? {loads : List Load} (h : ∀ l ∈ loads, l.delivery.IsOrderly)
    {t : Trace} (ht : firstFailure? loads = some t) : t.kind = .initialization := by
  obtain ⟨l, hl, hlt⟩ := List.exists_of_findSome?_eq_some ht
  rcases outcome_spec (h l hl) with ⟨r, keys, hr, _⟩ | ⟨t', ht', hkind⟩
  · simp [hr] at hlt
  · simp only [ht', Option.some.injEq] at hlt
    rwa [← hlt]

theorem succeeds_of_firstFailure? {loads : List Load} (h : firstFailure? loads = none) :
    ∀ l ∈ loads, l.Succeeds := by
  intro l hl
  have hn := List.findSome?_eq_none_iff.1 h l hl
  rcases ho : l.outcome with t | ⟨r, e⟩
  · simp [ho] at hn
  · exact ⟨r, e, ho⟩

theorem isTextual_of_mem_registries {loads : List Load} (h : ∀ l ∈ loads, l.delivery.IsOrderly)
    {r : Registry} (hr : r ∈ registries loads) : Entries.IsTextual r := by
  obtain ⟨l, hl, hlr⟩ := List.mem_filterMap.1 hr
  rcases outcome_spec (h l hl) with ⟨r', keys, hr', htext⟩ | ⟨t, ht, _⟩
  · simp only [hr', Option.some.injEq] at hlr
    rwa [← hlr]
  · simp [ht] at hlr

/-- The events of loads that succeed report their packages, each once and in order. -/
theorem events_of_succeeds {loads : List Load} (h : ∀ l ∈ loads, l.delivery.IsOrderly)
    (hs : ∀ l ∈ loads, l.Succeeds) :
    (events loads).map Event.package? = loads.map fun l => some l.package := by
  induction loads with
  | nil => rfl
  | cons l loads ih =>
    obtain ⟨hl, hrest⟩ := List.forall_mem_cons.1 h
    obtain ⟨⟨r, e, he⟩, hs⟩ := List.forall_mem_cons.1 hs
    rcases outcome_spec hl with ⟨r', keys, hk, _⟩ | ⟨t, ht, _⟩
    · have hcons : events (l :: loads) = .packageLoaded l.package keys :: events loads := by
        simp only [events, List.filterMap_cons, hk]
      rw [hcons, List.map_cons, List.map_cons, ih hrest hs, Event.package?_packageLoaded]
    · rw [ht] at he
      cases he

theorem isReady_of_mem_events {loads : List Load} (h : ∀ l ∈ loads, l.delivery.IsOrderly)
    {e : Event} (he : e ∈ events loads) : e.isReady = false := by
  obtain ⟨l, hl, hle⟩ := List.mem_filterMap.1 he
  rcases outcome_spec (h l hl) with ⟨r', keys, hk, _⟩ | ⟨t, ht, _⟩
  · simp only [hk, Option.some.injEq] at hle
    rw [← hle, Event.isReady_packageLoaded]
  · simp [ht] at hle

theorem package_of_askAll (loader : Loader) (asked packages : List String) :
    (askAll loader asked packages).map package = packages := by
  induction packages generalizing asked with
  | nil => rfl
  | cons p packages ih => rw [askAll, List.map_cons, ih]

theorem isOrderly_of_mem_askAll {loader : Loader} (h : loader.IsOrderly)
    {asked packages : List String} {l : Load} (hl : l ∈ askAll loader asked packages) :
    l.delivery.IsOrderly := by
  induction packages generalizing asked with
  | nil => simp [askAll] at hl
  | cons p packages ih =>
    rcases List.mem_cons.1 hl with rfl | hl
    · exact h _ _
    · exact ih hl

theorem le_foldl_max (loads : List Load) (n : ℕ) :
    n ≤ loads.foldl (fun n l => max n l.delivery.ticks) n := by
  induction loads generalizing n with
  | nil => exact le_rfl
  | cons l loads ih => exact le_trans (le_max_left _ _) (ih _)

theorem ticks_le_foldl_max {loads : List Load} {l : Load} (hl : l ∈ loads) (n : ℕ) :
    l.delivery.ticks ≤ loads.foldl (fun n l => max n l.delivery.ticks) n := by
  induction loads generalizing n with
  | nil => simp at hl
  | cons q loads ih =>
    rcases List.mem_cons.1 hl with rfl | hl
    · exact le_trans (le_max_right _ _) (le_foldl_max loads _)
    · exact ih hl _

theorem ticks_le_longest {loads : List Load} {l : Load} (hl : l ∈ loads) :
    l.delivery.ticks ≤ longest loads := ticks_le_foldl_max hl 0

end Load

end CodeHighlight
