import CodeHighlight.Proofs.HostSteps
import CodeHighlight.Proofs.SingleFlight

/-!
# The order of loads

Main statement: `load_order_irrelevant`. When all packages deliver mappings, the delays of the
loader decide nothing but the order in which the packages are reported: the registry is merged in
the order in which the packages are listed.

An undisturbed build whose loads all succeed runs through the same stages whatever the delays are,
and at each stage the log reports the loads that are over (`StandsAt`, `advance_of_standsAt`).
Loads without a delay (`Load.instant`) stand for what all loaders with the same deliveries have in
common.
-/

namespace CodeHighlight

/-- Asked for packages for the first time, in listed order, the loader delivers these mappings,
after whatever delays. -/
def Loader.Delivers (loader : Loader) (packages : List String)
    (results : List (Entries Key Value)) : Prop :=
  (Load.askAll loader [] packages).map (fun l => l.delivery.result) =
    results.map fun es => .ok (.map es)

/-- The event reports that a package delivered a mapping. -/
def Event.Reports (e : Event) (package : String) (es : Entries Key Value) : Prop :=
  ∃ keys, e = .packageLoaded package keys ∧ keys.Perm (Entries.keys es) ∧ Key.InOrder keys

namespace Load
variable {loads : List Load} {packages : List String} {results : List (Entries Key Value)}

/-! ### Loads without a delay -/

/-- The same load without a delay, so that it cannot be stopped. -/
def atOnce (l : Load) : Load := { l with delivery := { result := l.delivery.result } }

/-- The loads of packages that deliver mappings without a delay. -/
def instant (packages : List String) (results : List (Entries Key Value)) : List Load :=
  List.zipWith (fun p es => ⟨p, { result := .ok (.map es) }⟩) packages results

theorem outcome_atOnce (l : Load) : l.atOnce.outcome = l.outcome := rfl

theorem events_map_atOnce (loads : List Load) : events (loads.map atOnce) = events loads := by
  unfold events
  rw [List.filterMap_map]
  rfl

theorem registries_map_atOnce (loads : List Load) :
    registries (loads.map atOnce) = registries loads := by
  unfold registries
  rw [List.filterMap_map]
  rfl

/-- Loads that deliver these mappings differ from loads without a delay in their delays only. -/
theorem map_atOnce_of_results (hp : loads.map package = packages)
    (hr : loads.map (fun l => l.delivery.result) = results.map fun es => .ok (.map es)) :
    loads.map atOnce = instant packages results := by
  induction loads generalizing packages results with
  | nil =>
    subst hp
    rfl
  | cons l loads ih =>
    subst hp
    cases results with
    | nil => cases hr
    | cons es results =>
      rw [List.map_cons, List.map_cons, List.cons.injEq] at hr
      obtain ⟨p, ticks, result, answer⟩ := l
      obtain ⟨rfl, hr⟩ := hr
      rw [List.map_cons, ih rfl hr]
      rfl

theorem outcome_of_textual (p : String) {es : Entries Key Value} (h : Entries.IsTextual es) :
    ∃ e : Event, outcome ⟨p, { result := .ok (.map es) }⟩ = .ok (registryOf es, e) ∧
      e.Reports p es := by
  obtain ⟨keys, hkeys, hperm, hord⟩ := Key.sort_of_isText h
  refine ⟨.packageLoaded p keys, ?_, keys, rfl, hperm, hord⟩
  show (Key.sort (Entries.keys es) >>= fun keys => _) = _
  rw [hkeys]
  rfl

theorem outcome_of_mem_instant (textual : ∀ es ∈ results, Entries.IsTextual es) {l : Load}
    (hl : l ∈ instant packages results) : ∃ es e, l.outcome = .ok (registryOf es, e) := by
  induction packages generalizing results with
  | nil => cases hl
  | cons p packages ih =>
    cases results with
    | nil => cases hl
    | cons es results =>
      obtain ⟨hes, hrest⟩ := List.forall_mem_cons.1 textual
      rcases List.mem_cons.1 hl with rfl | hl
      · obtain ⟨e, he, _⟩ := outcome_of_textual p hes
        exact ⟨es, e, he⟩
      · exact ih hrest hl

/-- Each load without a delay reports its package. -/
theorem events_instant (textual : ∀ es ∈ results, Entries.IsTextual es) :
    List.Forall₂ (fun (p : String × Entries Key Value) (e : Event) => e.Reports p.1 p.2)
      (packages.zip results) (events (instant packages results)) := by
  induction packages generalizing results with
  | nil => exact .nil
  | cons p packages ih =>
    cases results with
    | nil => exact .nil
    | cons es results =>
      obtain ⟨hes, hrest⟩ := List.forall_mem_cons.1 textual
      obtain ⟨e, he, hreports⟩ := outcome_of_textual p hes
      have hcons : events (instant (p :: packages) (es :: results)) =
          e :: events (instant packages results) := by
        simp only [events, instant, List.zipWith_cons_cons, List.filterMap_cons, he]
      rw [hcons]
      exact .cons hreports (ih hrest)

/-- Loads without a delay give the grammars of their mappings, in listed order. -/
theorem registries_instant (textual : ∀ es ∈ results, Entries.IsTextual es)
    (hlen : packages.length = results.length) :
    registries (instant packages results) = results.map registryOf := by
  induction packages generalizing results with
  | nil =>
    rw [List.length_eq_zero_iff.1 hlen.symm]
    rfl
  | cons p packages ih =>
    cases results with
    | nil => cases hlen
    | cons es results =>
      obtain ⟨hes, hrest⟩ := List.forall_mem_cons.1 textual
      obtain ⟨e, he, _⟩ := outcome_of_textual p hes
      have hcons : registries (instant (p :: packages) (es :: results)) =
          registryOf es :: registries (instant packages results) := by
        simp only [registries, instant, List.zipWith_cons_cons, List.filterMap_cons, he]
      rw [hcons, ih hrest (Nat.succ.inj hlen), List.map_cons]

end Load

namespace Loader.Delivers
variable {loader : Loader} {packages : List String} {results : List (Entries Key Value)}

theorem map_atOnce (h : loader.Delivers packages results) :
    (Load.askAll loader [] packages).map Load.atOnce = Load.instant packages results :=
  Load.map_atOnce_of_results (Load.package_of_askAll loader [] packages) h

theorem events_eq (h : loader.Delivers packages results) :
    Load.events (Load.askAll loader [] packages) = Load.events (Load.instant packages results) := by
  rw [← h.map_atOnce, Load.events_map_atOnce]

theorem length_eq (h : loader.Delivers packages results) : packages.length = results.length := by
  have hlen := congrArg List.length h
  rw [List.length_map, List.length_map] at hlen
  rw [← hlen, ← List.length_map Load.package, Load.package_of_askAll]

theorem registries_eq (h : loader.Delivers packages results)
    (textual : ∀ es ∈ results, Entries.IsTextual es) :
    Load.registries (Load.askAll loader [] packages) = results.map Load.registryOf := by
  rw [← Load.registries_map_atOnce, h.map_atOnce, Load.registries_instant textual h.length_eq]

/-- No load fails, whichever of them have finished. -/
theorem firstFailure?_filter (h : loader.Delivers packages results)
    (textual : ∀ es ∈ results, Entries.IsTextual es) (p : Load → Bool) :
    Load.firstFailure? ((Load.askAll loader [] packages).filter p) = none := by
  refine List.findSome?_eq_none_iff.2 fun l hl => ?_
  have hmem : l.atOnce ∈ Load.instant packages results := by
    rw [← h.map_atOnce]
    exact List.mem_map_of_mem (List.mem_of_mem_filter hl)
  obtain ⟨es, e, he⟩ := Load.outcome_of_mem_instant textual hmem
  rw [Load.outcome_atOnce] at he
  rw [he]

end Loader.Delivers

namespace Assembler
variable {a : Assembler} {config : Config} {loader : Loader} {results : List (Entries Key Value)}
  {languages : List Key}

/-! ### Smooth builds -/

/-- The registry of a configuration whose packages delivered these mappings, in listed order. -/
def merged (config : Config) (results : List (Entries Key Value)) : Registry :=
  Registry.build config.explicit (results.map Load.registryOf) config.precedence

/-- The events of a configuration whose packages delivered these mappings, in listed order. -/
def reports (config : Config) (results : List (Entries Key Value)) : List Event :=
  Load.events (Load.instant config.packages results)

/-- What the first build has done at a stage, when no load fails. -/
def StandsAt (results : List (Entries Key Value)) (a : Assembler) : Stage → Prop
  | .scheduled => a.asked = [] ∧ a.log = []
  | .loading elapsed loads =>
    loads = a.loadsAfter [] ∧
      a.log.Perm (Load.events (loads.filter fun l => l.delivery.ticks ≤ elapsed))
  | .settled (.ok loaded) =>
    loaded = results.map Load.registryOf ∧ a.log.Perm (reports a.config results)
  | .failing _ | .settled (.error _) => False

/-- The first build has published the registry and reported it. -/
def IsPublished (results : List (Entries Key Value)) (languages : List Key) (a : Assembler) :
    Prop :=
  a.task = .none ∧ a.registry = some (0, merged a.config results) ∧
    ∃ recent, recent.Perm (reports a.config results) ∧
      a.log = recent ++ [Event.registryReady languages]

/-- The first build has not begun, is under way or has published the registry, and all requests are
as those that begin now, unless they have not begun or were cancelled. -/
structure Smooth (config : Config) (loader : Loader) (results : List (Entries Key Value))
    (languages : List Key) (a : Assembler) : Prop where
  config : a.config = config
  loader : a.loader = loader
  error : a.error = none
  late : a.late = none
  build : (a.task = .none ∧ a.registry = none ∧ a.builds = 0 ∧ a.asked = [] ∧ a.log = []) ∨
    (∃ s, a.task = .running 0 s ∧ a.registry = none ∧ a.StandsAt results s) ∨
    a.IsPublished results languages
  requests : ∀ r ∈ a.requests, r = .scheduled ∨ r = .ended .cancelled ∨ r = a.begun

theorem smooth_initial :
    (initial config loader).Smooth config loader results languages :=
  ⟨rfl, rfl, rfl, rfl, Or.inl ⟨rfl, rfl, rfl, rfl, rfl⟩, by rintro _ ⟨⟩⟩

theorem begun_of_running {n : ℕ} {s : Stage} (hr : a.registry = none) (he : a.error = none)
    (ht : a.task = .running n s) : a.begun = .waiting n := by
  simp [begun, hr, he, ht]

/-- A build under way goes on for one turn, and the requests that have not begun wait for it. -/
theorem turn_eq_advance (hr : a.registry = none) (he : a.error = none) (hl : a.late = none)
    {n : ℕ} {s : Stage} (ht : a.task = .running n s) :
    a.turn = ({ a with requests := a.requests.map (beginAs (.waiting n)) } : Assembler).advance
      n s := by
  rw [turn_of_running ht, publishLate_beginRequests hl,
    beginRequests_of_not_needsBuild (by simp [needsBuild, ht]), begun_of_running hr he ht]

theorem begun_of_registry {n : ℕ} {r : Registry} (hr : a.registry = some (n, r)) :
    a.begun = .ended (.registry n r) := by
  simp [begun, hr]

/-- Once the loads of a tick have finished, the build goes on loading or has all registries. -/
theorem finishLoads_of_delivers (delivers : a.loader.Delivers a.config.packages results)
    (textual : ∀ es ∈ results, Entries.IsTextual es) {elapsed : ℕ}
    (hlog : a.log.Perm
      (Load.events ((a.loadsAfter []).filter fun l => l.delivery.ticks < elapsed))) :
    ∃ log s, a.finishLoads 0 elapsed (a.loadsAfter []) =
        { a with log := log, task := .running 0 s } ∧
      StandsAt results { a with log := log, task := .running 0 s } s := by
  have hnone := delivers.firstFailure?_filter textual fun l => l.delivery.ticks == elapsed
  have hlog' := (hlog.append_right _).trans (events_filter_le (a.loadsAfter []) elapsed)
  unfold finishLoads
  refine ⟨_, _, rfl, ?_⟩
  unfold loadsAfter at hlog' ⊢
  simp only [hnone]
  split_ifs with hfin
  · have hle : ∀ l ∈ Load.askAll a.loader [] a.config.packages, l.delivery.ticks ≤ elapsed := by
      simpa using hfin
    rw [List.filter_eq_self.2 fun l hl => decide_eq_true (hle l hl), delivers.events_eq] at hlog'
    exact ⟨delivers.registries_eq textual, hlog'⟩
  · exact ⟨rfl, hlog'⟩

/-- A registry that is published is reported with its languages. -/
theorem publish_merged (hlang : Registry.languages (merged a.config results) = .ok languages) :
    a.publish 0 (.ok (results.map Load.registryOf)) =
      { a with
        registry := some (0, merged a.config results), task := .none,
        log := a.log ++ [Event.registryReady languages] }.answerAll 0
          (.registry 0 (merged a.config results)) := by
  unfold merged at hlang
  simp only [publish, hlang]
  rfl

/-- **A build that goes on for one turn** comes to its next stage, or it publishes the registry. -/
theorem advance_of_standsAt (delivers : a.loader.Delivers a.config.packages results)
    (textual : ∀ es ∈ results, Entries.IsTextual es)
    (hlang : Registry.languages (merged a.config results) = .ok languages) {s : Stage}
    (hs : a.StandsAt results s) :
    (∃ asked log s', a.advance 0 s =
        { a with asked := asked, log := log, task := .running 0 s' } ∧
      StandsAt results { a with asked := asked, log := log, task := .running 0 s' } s') ∨
    ∃ recent, recent.Perm (reports a.config results) ∧
      a.advance 0 s =
        { a with
          registry := some (0, merged a.config results), task := .none,
          log := recent ++ [Event.registryReady languages] }.answerAll 0
            (.registry 0 (merged a.config results)) := by
  rcases s with _ | ⟨elapsed, loads⟩ | t | t | loaded
  · obtain ⟨hasked, hlog⟩ := hs
    by_cases hp : a.config.packages.isEmpty = true
    · have hnil : a.config.packages = [] := List.isEmpty_iff.1 hp
      have hres : results = [] :=
        List.length_eq_zero_iff.1 (delivers.length_eq.symm.trans (by rw [hnil]; rfl))
      refine Or.inr ⟨a.log, ?_, ?_⟩
      · rw [hlog, reports, hnil]
        exact List.Perm.refl _
      · rw [advance_scheduled_of_isEmpty hp, ← publish_merged hlang, hres]
        rfl
    · rw [advance_scheduled hp, hasked]
      have hlog' : a.asking.log.Perm (Load.events
          ((a.asking.loadsAfter []).filter fun l => l.delivery.ticks < 0)) := by
        show a.log.Perm _
        rw [hlog]
        simp [Load.events]
      obtain ⟨log, s', heq, hs'⟩ :=
        finishLoads_of_delivers (a := a.asking) delivers textual hlog'
      exact Or.inl ⟨_, log, s', heq, hs'⟩
  · obtain ⟨rfl, hlog⟩ := hs
    simp only [← Nat.lt_succ_iff] at hlog
    obtain ⟨log, s', heq, hs'⟩ := finishLoads_of_delivers delivers textual hlog
    exact Or.inl ⟨a.asked, log, s', heq, hs'⟩
  · exact hs.elim
  · exact hs.elim
  · obtain ⟨rfl, hlog⟩ := hs
    exact Or.inr ⟨a.log, hlog, publish_merged hlang⟩

/-- Requests that have begun stand for what the assembler has come to. -/
theorem mem_map_beginAs {rs : List Request} {b : Request} (hb : b ≠ .scheduled)
    (hrs : ∀ r ∈ rs, r = .scheduled ∨ r = .ended .cancelled ∨ r = b) {r : Request}
    (hr : r ∈ rs.map (beginAs b)) : r = .ended .cancelled ∨ r = b := by
  obtain ⟨q, hq, rfl⟩ := List.mem_map.1 hr
  rcases hrs q hq with rfl | rfl | rfl
  · exact Or.inr rfl
  · exact Or.inl rfl
  · cases q with
    | scheduled => exact absurd rfl hb
    | _ => exact Or.inr rfl

/-! ### Turns of a smooth build -/

section Turns
variable (delivers : loader.Delivers config.packages results)
  (textual : ∀ es ∈ results, Entries.IsTextual es)
  (hlang : Registry.languages (merged config results) = .ok languages)
include delivers textual hlang

/-- A turn of a build under way: it goes on and its requests wait, or all of them are answered with
the registry. -/
theorem Smooth.turn_of_running (h : a.Smooth config loader results languages) {s : Stage}
    (ht : a.task = .running 0 s) :
    a.turn.Smooth config loader results languages ∧
      ((∃ s', a.turn.task = .running 0 s') ∧
          a.turn.requests = a.requests.map (beginAs (.waiting 0)) ∨
        a.turn.IsPublished results languages ∧
          a.turn.requests =
            (answerAll { a with requests := a.requests.map (beginAs (.waiting 0)) } 0
              (.registry 0 (merged config results))).requests) := by
  obtain ⟨hr, hs⟩ : a.registry = none ∧ a.StandsAt results s := by
    rcases h.build with ⟨ht', _⟩ | ⟨s', ht', hr, hs⟩ | ⟨ht', _⟩
    · rw [ht] at ht'
      cases ht'
    · rw [ht] at ht'
      cases ht'
      exact ⟨hr, hs⟩
    · rw [ht] at ht'
      cases ht'
  have hbegun := begun_of_running hr h.error ht
  have hwait : ∀ r ∈ a.requests.map (beginAs (.waiting 0)),
      r = .ended .cancelled ∨ r = .waiting 0 := fun r =>
    mem_map_beginAs (by simp) (by rw [← hbegun]; exact h.requests)
  have hturn := turn_eq_advance hr h.error h.late ht
  obtain ⟨rfl, rfl⟩ : a.config = config ∧ a.loader = loader := ⟨h.config, h.loader⟩
  rcases advance_of_standsAt (a := { a with requests := a.requests.map (beginAs (.waiting 0)) })
      delivers textual hlang hs with ⟨asked, log, s', heq, hs'⟩ | ⟨recent, hperm, heq⟩
  · rw [hturn, heq]
    refine ⟨⟨rfl, rfl, h.error, h.late, Or.inr (Or.inl ⟨s', rfl, hr, hs'⟩), fun r hm => ?_⟩,
      Or.inl ⟨⟨s', rfl⟩, rfl⟩⟩
    refine Or.inr ((hwait r hm).imp_right fun hw => hw.trans (Eq.symm ?_))
    exact begun_of_running hr h.error rfl
  · rw [hturn, heq]
    have hover : IsPublished results languages
        { a with
          requests := a.requests.map (beginAs (.waiting 0))
          registry := some (0, merged a.config results), task := .none
          log := recent ++ [Event.registryReady languages] } := ⟨rfl, rfl, recent, hperm, rfl⟩
    refine ⟨⟨rfl, rfl, h.error, h.late, Or.inr (Or.inr hover), fun r hm => ?_⟩,
      Or.inr ⟨hover, rfl⟩⟩
    rcases mem_answerAll hm with rfl | ⟨hm, hn⟩
    · exact Or.inr (Or.inr (Eq.symm (begun_of_registry rfl)))
    · exact Or.inr (Or.inl ((hwait r hm).resolve_right hn))

/-- **A turn keeps a build smooth.** -/
theorem Smooth.turn (h : a.Smooth config loader results languages) :
    a.turn.Smooth config loader results languages := by
  rcases h.build with ⟨ht, hr, hbuilds, hasked, hlog⟩ | ⟨s, ht, _⟩ | ⟨ht, hr, recent, hperm, hlog⟩
  · have hb : a.begun = .scheduled := by simp [begun, hr, h.error, ht]
    have hn : a.needsBuild = true := needsBuild_iff.2 ⟨not_done_iff.2 ⟨hr, h.error⟩, Or.inl ht⟩
    rw [turn_of_not_running (by simp [ht]), publishLate_beginRequests h.late]
    by_cases hs : a.hasScheduled = true
    · have hready : a.ready = { a with task := .running 0 .scheduled, builds := 1 } := by
        rw [ready, if_pos hn, hbuilds]
      have hwait : a.ready.begun = .waiting 0 := by
        rw [hready]
        exact begun_of_running hr h.error rfl
      rw [beginRequests_eq hs, hwait, hready]
      refine ⟨h.config, h.loader, h.error, h.late,
        Or.inr (Or.inl ⟨.scheduled, rfl, hr, hasked, hlog⟩), fun r hm => ?_⟩
      have hfits : ∀ q ∈ a.requests, q = .scheduled ∨ q = .ended .cancelled ∨ q = .waiting 0 := by
        intro q hq
        rcases h.requests q hq with hq | hq | hq
        · exact Or.inl hq
        · exact Or.inr (Or.inl hq)
        · exact Or.inl (hq.trans hb)
      refine Or.inr ((mem_map_beginAs (by simp) hfits hm).imp_right fun hw => hw.trans (Eq.symm ?_))
      exact begun_of_running hr h.error rfl
    · rw [beginRequests_of_not_hasScheduled (by simpa using hs)]
      exact h
  · exact (h.turn_of_running delivers textual hlang ht).1
  · have hb := begun_of_registry hr
    rw [turn_of_not_running (by simp [ht]), publishLate_beginRequests h.late,
      beginRequests_of_not_needsBuild (by simp [needsBuild, done, hr])]
    refine ⟨h.config, h.loader, h.error, h.late, Or.inr (Or.inr ⟨ht, hr, recent, hperm, hlog⟩),
      fun r hm => Or.inr (mem_map_beginAs (by simp [hb]) h.requests hm)⟩

theorem Smooth.move (h : a.Smooth config loader results languages) {m : Move} (hc : m ≠ .cancel)
    (hm : m = .leave → ¬a.IsBuilding) : (a.move m).Smooth config loader results languages := by
  cases m with
  | request =>
    refine ⟨h.config, h.loader, h.error, h.late, h.build, fun r hr => ?_⟩
    rcases List.mem_append.1 hr with hr | hr
    · exact h.requests r hr
    · exact Or.inl (List.mem_singleton.1 hr)
  | turn => exact h.turn delivers textual hlang
  | withdraw i =>
    refine ⟨h.config, h.loader, h.error, h.late, h.build, fun r hr => ?_⟩
    rcases mem_cancelRequest hr with rfl | hr
    · exact Or.inr (Or.inl rfl)
    · exact h.requests r hr
  | cancel => exact absurd rfl hc
  | leave =>
    show a.leaveLoop.Smooth config loader results languages
    rw [leaveLoop_of_not_isBuilding h.late (hm rfl)]
    exact ⟨h.config, h.loader, h.error, h.late, h.build, by rintro _ ⟨⟩⟩

/-- **Undisturbed schedules keep a build smooth.** -/
theorem Smooth.play {ms : List Move} (h : a.Smooth config loader results languages)
    (hms : a.Undisturbed ms) : (a.play ms).Smooth config loader results languages := by
  induction ms generalizing a with
  | nil => exact h
  | cons m ms ih =>
    obtain ⟨hc, hm, hms⟩ := hms
    exact ih (h.move delivers textual hlang hc hm) hms

/-- Turns answer all requests that wait for a build under way, when there are enough of them. -/
theorem Smooth.turnsUntil (h : a.Smooth config loader results languages) {s : Stage} {n k : ℕ}
    (ht : a.task = .running 0 s) (hr : a.requests = List.replicate (n + 1) (.waiting 0))
    (hk : a.remaining ≤ k) :
    let b := Assembler.turnsUntil isIdle k a
    b.Smooth config loader results languages ∧ b.IsPublished results languages ∧
      b.requests = List.replicate (n + 1) (.ended (.registry 0 (merged config results))) := by
  have hless : a.turn.remaining < a.remaining := remaining_turn h.late ⟨0, s, ht⟩
  have hwait : a.isIdle = false := by simp [isIdle, hr, Request.isOpen]
  induction k generalizing a s with
  | zero => omega
  | succ k ih =>
    rw [Assembler.turnsUntil, hwait, if_neg Bool.false_ne_true]
    obtain ⟨hturn, ⟨⟨s', ht'⟩, hr'⟩ | ⟨hpub, hr'⟩⟩ :=
      h.turn_of_running delivers textual hlang ht
    · have hr' : a.turn.requests = List.replicate (n + 1) (.waiting 0) := by
        rw [hr', hr, List.map_replicate]
        rfl
      exact ih hturn ht' hr' (by omega) (remaining_turn hturn.late ⟨0, s', ht'⟩)
        (by simp [isIdle, hr', Request.isOpen])
    · have hr' : a.turn.requests =
          List.replicate (n + 1) (.ended (.registry 0 (merged config results))) := by
        rw [hr', hr, List.map_replicate, answerAll, List.map_replicate]
        rfl
      have hidle : a.turn.isIdle = true := by simp [isIdle, hr', Request.isOpen]
      have hstop : Assembler.turnsUntil isIdle k a.turn = a.turn := by
        cases k with
        | zero => rfl
        | succ k => rw [Assembler.turnsUntil, if_pos hidle]
      rw [hstop]
      exact ⟨hturn, hpub, hr'⟩

/-- The first requests of a host end with the registry. -/
theorem perform_get_of_delivers (n : ℕ) :
    let (sight, a) := (initial config loader).perform (.get (n + 1))
    sight.outcomes = List.replicate (n + 1) (.registry 0 (merged config results)) ∧
      a.registry = some (0, merged config results) ∧
      ∃ recent, recent.Perm (reports config results) ∧
        a.log = recent ++ [Event.registryReady languages] := by
  have hmany : (initial config loader).requestMany (n + 1) =
      { initial config loader with requests := List.replicate (n + 1) .scheduled } :=
    requestMany_eq _
  let begun : Assembler := { initial config loader with
    task := .running 0 .scheduled, builds := 1, requests := List.replicate (n + 1) (.waiting 0) }
  have hturn : ((initial config loader).requestMany (n + 1)).turn = begun := by
    have hs : ((initial config loader).requestMany (n + 1)).hasScheduled = true := by
      rw [hmany, hasScheduled_iff]
      exact List.mem_replicate.2 ⟨n.succ_ne_zero, rfl⟩
    rw [turn_of_not_running (by rw [hmany]; rintro _ _ ⟨⟩),
      publishLate_beginRequests (by rw [hmany]; rfl), beginRequests_eq hs, hmany]
    show ({ begun with requests := (List.replicate (n + 1) _).map _ } : Assembler) = _
    rw [List.map_replicate]
    rfl
  have hbegun : begun.Smooth config loader results languages := by
    refine ⟨rfl, rfl, rfl, rfl, Or.inr (Or.inl ⟨.scheduled, rfl, rfl, rfl, rfl⟩), fun r hr => ?_⟩
    exact Or.inr (Or.inr (List.eq_of_mem_replicate hr))
  have hleft : ((initial config loader).requestMany (n + 1)).turnsLeft = begun.remaining + 1 := by
    rw [hmany]
    rfl
  have hopen : ((initial config loader).requestMany (n + 1)).isIdle = false := by
    rw [hmany]
    simp [isIdle, Request.isOpen]
  obtain ⟨hsmooth, ⟨ht, hreg, hlog⟩, hreq⟩ :=
    hbegun.turnsUntil delivers textual hlang rfl rfl le_rfl
  set b := Assembler.turnsUntil isIdle begun.remaining begun with hb
  have hstay : b.turn = b := by
    have hs : b.hasScheduled = false := by
      rw [hasScheduled_eq_false_iff, hreq]
      intro hm
      cases List.eq_of_mem_replicate hm
    rw [turn_of_not_running (by simp [ht]), publishLate_beginRequests hsmooth.late,
      beginRequests_of_not_hasScheduled hs]
  have hfinish : ((initial config loader).requestMany (n + 1)).finish = b := by
    rw [finish, hleft, Assembler.turnsUntil, hopen, if_neg Bool.false_ne_true, hturn, ← hb, hstay,
      hstay]
  have hidle : ¬b.IsBuilding := by
    rintro ⟨m, s, hs⟩
    rw [ht] at hs
    cases hs
  unfold perform
  simp only [hfinish, hstay, leaveLoop_of_not_isBuilding hsmooth.late hidle]
  rw [hsmooth.config] at hreg hlog
  refine ⟨?_, hreg, hlog⟩
  rw [outcomes, hreq, List.map_replicate]
  rfl

end Turns

/-- **The order of loads does not matter.** Let all packages of a configuration deliver mappings
under texts. There are reports, one for each listed package, and languages, the keys of the registry
that is merged in listed order, such that for every loader that delivers these mappings, after
whatever delays:

* under every schedule in which nobody cancels the build and no loop is left while it is under way,
  nothing fails, requests that have ended have that registry unless they were cancelled, and once a
  registry is published it is that one, and the log is the reports in some order, followed by the
  one event that the registry is complete;
* the first requests of a host are answered with that registry. -/
theorem load_order_irrelevant (config : Config) (results : List (Entries Key Value))
    (textual : ∀ es ∈ results, Entries.IsTextual es) :
    ∃ (reports : List Event) (languages : List Key),
      List.Forall₂ (fun (p : String × Entries Key Value) (e : Event) => e.Reports p.1 p.2)
        (config.packages.zip results) reports ∧
      languages.Perm (Entries.keys (merged config results)) ∧ Key.InOrder languages ∧
      ∀ loader : Loader, loader.Delivers config.packages results →
        (∀ moves, (initial config loader).Undisturbed moves →
          let a := (initial config loader).play moves
          a.error = none ∧
          (∀ o, .ended o ∈ a.requests → o = .cancelled ∨ o = .registry 0 (merged config results)) ∧
          ∀ n r, a.registry = some (n, r) → r = merged config results ∧
            ∃ recent, recent.Perm reports ∧ a.log = recent ++ [Event.registryReady languages]) ∧
        ∀ n,
          let (sight, a) := (initial config loader).perform (.get (n + 1))
          sight.outcomes = List.replicate (n + 1) (.registry 0 (merged config results)) ∧
          a.registry = some (0, merged config results) ∧
          ∃ recent, recent.Perm reports ∧ a.log = recent ++ [Event.registryReady languages] := by
  have hgrammars : ∀ p ∈ results.map Load.registryOf, Entries.IsTextual p := by
    intro p hp
    obtain ⟨es, hes, rfl⟩ := List.mem_map.1 hp
    exact (textual es hes).mapValues _
  obtain ⟨languages, hlang, hperm, hord⟩ := Registry.languages_build config hgrammars
  refine ⟨reports config results, languages, Load.events_instant textual, hperm, hord,
    fun loader delivers => ⟨fun moves hmoves => ?_,
      perform_get_of_delivers delivers textual hlang⟩⟩
  have hstart : (initial config loader).Smooth config loader results languages := smooth_initial
  have h := hstart.play delivers textual hlang hmoves
  refine ⟨h.error, fun o ho => ?_, fun n r hr => ?_⟩
  · rcases h.requests _ ho with hq | hq | hq
    · cases hq
    · cases hq
      exact Or.inl rfl
    · -- a request that has ended begins only when the registry is published
      rcases h.build with ⟨ht, hreg, _⟩ | ⟨s, ht, hreg, _⟩ | ⟨_, hreg, _⟩
      · simp [begun, hreg, h.error, ht] at hq
      · rw [begun_of_running hreg h.error ht] at hq
        cases hq
      · rw [begun_of_registry hreg, h.config] at hq
        cases hq
        exact Or.inr rfl
  · rcases h.build with ⟨_, hreg, _⟩ | ⟨s, _, hreg, _⟩ | ⟨_, hreg, hlog⟩
    · rw [hr] at hreg
      cases hreg
    · rw [hr] at hreg
      cases hreg
    · rw [hr, h.config] at hreg
      cases hreg
      rw [h.config] at hlog
      exact ⟨rfl, hlog⟩

/-- A loader that takes three ticks for one package and none for others. All packages deliver a
grammar of the same language. -/
def lateLoader (late : String) : Loader := fun package _ =>
  { ticks := if package = late then 3 else 0
    result := .ok (.map [(.str "js", .scalar (.str package))]) }

/-- Whichever of two packages that collide comes late, a host gets the same registry. -/
theorem load_order_irrelevant_lateLoader :
    let results := ["a", "b"].map fun p => [(Key.str "js", Value.scalar (.str p))]
    (∀ es ∈ results, Entries.IsTextual es) ∧
      (∀ late, (lateLoader late).Delivers ["a", "b"] results) ∧
      ((initial { packages := ["a", "b"] } (lateLoader "a")).perform (.get 1)).2.registry =
        ((initial { packages := ["a", "b"] } (lateLoader "b")).perform (.get 1)).2.registry := by
  intro results
  have textual : ∀ es ∈ results, Entries.IsTextual es := by
    intro es hes k hk
    obtain ⟨p, _, rfl⟩ := List.mem_map.1 hes
    exact ⟨"js", by simpa [Entries.keys] using hk⟩
  have delivers (late : String) : (lateLoader late).Delivers ["a", "b"] results := rfl
  obtain ⟨_, _, _, _, _, h⟩ := load_order_irrelevant { packages := ["a", "b"] } results textual
  obtain ⟨_, ha, _⟩ := (h _ (delivers "a")).2 0
  obtain ⟨_, hb, _⟩ := (h _ (delivers "b")).2 0
  exact ⟨textual, delivers, ha.trans hb.symm⟩

end Assembler

end CodeHighlight
