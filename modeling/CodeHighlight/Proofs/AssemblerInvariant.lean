import CodeHighlight.Assembly.Assembler
import CodeHighlight.Proofs.Deliveries

/-!
# The invariant of an assembler

What holds of an assembler with an orderly loader at every moment: a registry and a failure are
never both published, nothing is under way once one of them is, and each request that has ended was
cancelled or has what is published. The log follows the build: before a registry is published it
reports none as complete, and behind a published registry stand the reports of its loads
(`Assembler.Coherent`, `Assembler.Accounts`).

The parts of a turn keep the invariant: requests begin (`Invariant.beginRequests`), the failure that
is on its way is published (`Invariant.publishLate`), and a build goes on (`Invariant.advance`).
-/

namespace CodeHighlight.Assembler
variable {a : Assembler}

/-! ### What holds of the parts -/

/-- The outcome is what the assembler has published. -/
def Published (a : Assembler) (o : Outcome) : Prop :=
  (∃ n r, a.registry = some (n, r) ∧ o = .registry n r) ∨
    ∃ n t, a.error = some (n, t) ∧ o = .failure n t

/-- The newest events of a log are those of some loads, in some order. -/
def Reported (log : List Event) (loads : List Load) : Prop :=
  ∃ earlier recent, log = earlier ++ recent ∧ recent.Perm (Load.events loads)

/-- The loads of a build that asked for all packages, after others had been asked for. -/
def loadsAfter (a : Assembler) (asked : List String) : List Load :=
  Load.askAll a.loader asked a.config.packages

/-- What a build has done when it comes to a stage. -/
def Supports (a : Assembler) : Stage → Prop
  | .scheduled => True
  | .loading elapsed loads =>
    ∃ asked, loads = a.loadsAfter asked ∧
      (∀ l ∈ loads, l.delivery.ticks ≤ elapsed → l.Succeeds) ∧
      Reported a.log (loads.filter fun l => l.delivery.ticks ≤ elapsed)
  | .failing t | .settled (.error t) => t.kind = .initialization
  | .settled (.ok loaded) =>
    ∃ asked, loaded = Load.registries (a.loadsAfter asked) ∧
      (∀ l ∈ a.loadsAfter asked, l.Succeeds) ∧ Reported a.log (a.loadsAfter asked)

/-- The registry is merged from loads that all succeeded, and the log ends with their reports and
with the one report that the registry is complete. -/
def Complete (a : Assembler) (r : Registry) : Prop :=
  ∃ asked earlier recent keys,
    (∀ l ∈ a.loadsAfter asked, l.Succeeds) ∧
    r = Registry.build a.config.explicit (Load.registries (a.loadsAfter asked))
      a.config.precedence ∧
    recent.Perm (Load.events (a.loadsAfter asked)) ∧
    a.log = earlier ++ recent ++ [Event.registryReady keys] ∧
    ∀ e ∈ earlier, e.isReady = false

/-- What holds of an assembler whatever its requests are. -/
structure Coherent (a : Assembler) : Prop where
  orderly : a.loader.IsOrderly
  single : a.registry = none ∨ a.error = none
  settled : a.done = true → a.task = .none ∧ a.late = none
  stage : ∀ n s, a.task = .running n s → a.Supports s
  unbroken : ∀ n t, a.task ≠ .broken n t
  late : ∀ n t, a.late = some (n, t) → a.task = .none ∧ t.kind = .initialization
  unready : a.registry = none → ∀ e ∈ a.log, e.isReady = false
  complete : ∀ n r, a.registry = some (n, r) → a.Complete r
  failed : ∀ n t, a.error = some (n, t) → t.kind = .initialization

/-- What a request stands for: it waits for a build under way or for a failure on its way, or it
has ended with what is published, unless it was cancelled. -/
def Accounts (a : Assembler) : Request → Prop
  | .scheduled => True
  | .waiting n => (∃ s, a.task = .running n s) ∨ ∃ t, a.late = some (n, t)
  | .ended o => o = .cancelled ∨ a.Published o

/-- The invariant. -/
structure Invariant (a : Assembler) : Prop where
  coherent : a.Coherent
  accounts : ∀ r ∈ a.requests, a.Accounts r

/-- An assembler at its start. -/
def initial (config : Config) (loader : Loader) : Assembler := { config, loader }

theorem invariant_initial {config : Config} {loader : Loader} (orderly : loader.IsOrderly) :
    (initial config loader).Invariant := by
  refine ⟨⟨orderly, Or.inl rfl, by rintro ⟨⟩, by rintro _ _ ⟨⟩, by rintro _ _ ⟨⟩, by rintro _ _ ⟨⟩,
    by rintro _ _ ⟨⟩, by rintro _ _ ⟨⟩, by rintro _ _ ⟨⟩⟩, by rintro _ ⟨⟩⟩

theorem done_iff : a.done = true ↔ a.registry ≠ none ∨ a.error ≠ none := by
  simp [done, Option.isSome_iff_ne_none]

theorem not_done_iff : ¬a.done = true ↔ a.registry = none ∧ a.error = none := by
  simp [done_iff]

theorem Published.done {o : Outcome} (h : a.Published o) : a.done = true := by
  rcases h with ⟨n, r, h, _⟩ | ⟨n, t, h, _⟩ <;> simp [done_iff, h]

theorem exists_published (h : a.done = true) : ∃ o, a.Published o := by
  rcases done_iff.1 h with h | h
  · obtain ⟨⟨n, r⟩, hr⟩ := Option.ne_none_iff_exists'.1 h
    exact ⟨_, Or.inl ⟨n, r, hr, rfl⟩⟩
  · obtain ⟨⟨n, t⟩, ht⟩ := Option.ne_none_iff_exists'.1 h
    exact ⟨_, Or.inr ⟨n, t, ht, rfl⟩⟩

/-- There is only one outcome to be published. -/
theorem Coherent.published_unique (h : a.Coherent) {o o' : Outcome} (ho : a.Published o)
    (ho' : a.Published o') : o = o' := by
  rcases ho with ⟨n, r, hr, rfl⟩ | ⟨n, t, ht, rfl⟩ <;>
    rcases ho' with ⟨n', r', hr', rfl⟩ | ⟨n', t', ht', rfl⟩
  · rw [hr] at hr'; cases hr'; rfl
  · rcases h.single with h | h
    · rw [hr] at h; cases h
    · rw [ht'] at h; cases h
  · rcases h.single with h | h
    · rw [hr'] at h; cases h
    · rw [ht] at h; cases h
  · rw [ht] at ht'; cases ht'; rfl

theorem not_done_of_running (h : a.Coherent) {n : ℕ} {s : Stage} (ht : a.task = .running n s) :
    ¬a.done = true := by
  intro hd
  rw [(h.settled hd).1] at ht
  cases ht

theorem late_eq_none_of_running (h : a.Coherent) {n : ℕ} {s : Stage} (ht : a.task = .running n s) :
    a.late = none := by
  rcases hl : a.late with _ | ⟨m, t⟩
  · rfl
  · rw [(h.late m t hl).1] at ht
    cases ht

theorem Coherent.kind_of_late (h : a.Coherent) (n : ℕ) (t : Trace) (hl : a.late = some (n, t)) :
    t.kind = .initialization := (h.late n t hl).2

/-- The failure that a build publishes although it is stopped is one of a package. -/
theorem Coherent.kind_of_late? (h : a.Coherent) {n : ℕ} {s : Stage} (ht : a.task = .running n s)
    {t : Trace} (hs : s.late? = some t) : t.kind = .initialization := by
  cases s with
  | scheduled => cases hs
  | loading elapsed loads => exact Load.kind_of_stopped? hs
  | failing t' =>
    cases hs
    exact h.stage n _ ht
  | settled result => cases hs

/-- A build can be forgotten while nothing is published; a failure may be on its way from then
on. -/
theorem Coherent.forget (h : a.Coherent) (hd : ¬a.done = true) {late : Option (ℕ × Trace)}
    (hl : ∀ n t, late = some (n, t) → t.kind = .initialization) :
    ({ a with task := .none, late := late } : Assembler).Coherent where
  orderly := h.orderly
  single := h.single
  settled hd' := absurd hd' hd
  stage := by rintro _ _ ⟨⟩
  unbroken := by rintro _ _ ⟨⟩
  late n t hlt := ⟨rfl, hl n t hlt⟩
  unready := h.unready
  complete := h.complete
  failed := h.failed

theorem Coherent.withRequests (h : a.Coherent) (rs : List Request) :
    ({ a with requests := rs } : Assembler).Coherent :=
  ⟨h.orderly, h.single, h.settled, h.stage, h.unbroken, h.late, h.unready, h.complete, h.failed⟩

/-- What is on its way can be dropped with all requests. -/
theorem Coherent.dropLate (h : a.Coherent) :
    ({ a with requests := [], late := none } : Assembler).Coherent :=
  { h with settled := fun hd => ⟨(h.settled hd).1, rfl⟩, late := by rintro _ _ ⟨⟩ }

/-- Answering the requests of a build leaves none of them open. -/
theorem mem_answerAll {n : ℕ} {o : Outcome} {r : Request} (h : r ∈ (a.answerAll n o).requests) :
    r = .ended o ∨ (r ∈ a.requests ∧ r ≠ .waiting n) := by
  obtain ⟨q, hq, rfl⟩ := List.mem_map.1 h
  rcases q with _ | m | o'
  · exact Or.inr ⟨hq, by simp⟩
  · by_cases hm : m = n
    · simp [hm]
    · simp only [if_neg hm]
      exact Or.inr ⟨hq, by simpa using hm⟩
  · exact Or.inr ⟨hq, by simp⟩

/-! ### Requests begin -/

section Requests

theorem hasScheduled_iff : a.hasScheduled = true ↔ Request.scheduled ∈ a.requests := by
  unfold hasScheduled
  rw [List.any_eq_true]
  constructor
  · rintro ⟨r, hr, h⟩
    cases r with
    | scheduled => exact hr
    | _ => cases h
  · exact fun h => ⟨.scheduled, h, rfl⟩

theorem hasScheduled_eq_false_iff : a.hasScheduled = false ↔ Request.scheduled ∉ a.requests := by
  rw [← hasScheduled_iff, Bool.not_eq_true]

/-- A request that begins when no build is needed waits for the build under way or has what is
published. -/
theorem begun_spec (h : a.Coherent) (hn : a.needsBuild = false) :
    (∃ n s, a.task = .running n s ∧ a.begun = .waiting n) ∨
      ∃ o, a.Published o ∧ a.begun = .ended o := by
  unfold begun
  rcases hr : a.registry with _ | ⟨n, r⟩
  · rcases he : a.error with _ | ⟨n, t⟩
    · have hd : a.done = false := by simp [done, hr, he]
      rcases ht : a.task with _ | ⟨n, s⟩ | _ | ⟨n, t⟩
      · simp [needsBuild, hd, ht] at hn
      · exact Or.inl ⟨n, s, rfl, rfl⟩
      · simp [needsBuild, hd, ht] at hn
      · exact absurd ht (h.unbroken n t)
    · exact Or.inr ⟨.failure n t, Or.inr ⟨n, t, he, rfl⟩, rfl⟩
  · exact Or.inr ⟨.registry n r, Or.inl ⟨n, r, hr, rfl⟩, rfl⟩

/-- The assembler with a new build when one is needed. -/
def ready (a : Assembler) : Assembler :=
  if a.needsBuild then { a with task := .running a.builds .scheduled, builds := a.builds + 1 }
  else a

theorem ready_of_not_needsBuild (h : a.needsBuild = false) : a.ready = a := by simp [ready, h]

theorem needsBuild_ready : a.ready.needsBuild = false := by
  unfold ready
  split_ifs with h
  · simp [needsBuild]
  · simpa using h

/-- A request as it is once the scheduled ones have begun. -/
def beginAs (begun : Request) : Request → Request
  | .scheduled => begun
  | r => r

theorem beginRequests_eq (h : a.hasScheduled = true) :
    a.beginRequests =
      { a.ready with requests := a.requests.map (beginAs a.ready.begun) } := by
  unfold beginRequests
  rw [if_pos h]
  unfold ready
  split_ifs <;> rfl

theorem needsBuild_iff : a.needsBuild = true ↔
    ¬a.done = true ∧ (a.task = .none ∨ a.task = .abandoned) := by
  unfold needsBuild
  rcases a.task <;> simp

theorem Coherent.ready (h : a.Coherent) (hl : a.late = none) : a.ready.Coherent := by
  unfold Assembler.ready
  split_ifs with hn
  · obtain ⟨hd, _⟩ := needsBuild_iff.1 hn
    refine { h with settled := fun hd' => absurd hd' hd, stage := ?_, unbroken := ?_, late := ?_ }
    · rintro n s ⟨⟩
      trivial
    · rintro n t ⟨⟩
    · intro n t hlt
      rw [show a.late = some (n, t) from hlt] at hl
      cases hl
  · exact h

/-- What a request stands for is not lost when a build starts because one is needed. -/
theorem accounts_ready (hl : a.late = none) {r : Request} (hr : a.Accounts r) :
    a.ready.Accounts r := by
  unfold Assembler.ready
  split_ifs with hn
  · obtain ⟨_, ht⟩ := needsBuild_iff.1 hn
    cases r with
    | scheduled => trivial
    | waiting n =>
      rcases hr with ⟨s, hs⟩ | ⟨t, hlt⟩
      · rcases ht with ht | ht <;> rw [ht] at hs <;> cases hs
      · rw [hl] at hlt
        cases hlt
    | ended o => exact hr
  · exact hr

theorem Invariant.beginRequests (h : a.Invariant)
    (hc : a.late = none ∨ a.hasScheduled = false) :
    a.beginRequests.Invariant ∧ a.beginRequests.hasScheduled = false := by
  by_cases hs : a.hasScheduled = true
  · -- a request begins, so that no failure is on its way, and a build that starts is the only one
    have hl : a.late = none := hc.resolve_right (by simp [hs])
    have hready := h.coherent.ready hl
    have hbegun := begun_spec hready needsBuild_ready
    rw [beginRequests_eq hs]
    refine ⟨⟨hready.withRequests _, ?_⟩, ?_⟩
    · intro r hr
      obtain ⟨q, hq, rfl⟩ := List.mem_map.1 hr
      cases q with
      | scheduled =>
        rcases hbegun with ⟨n, s, ht, hb⟩ | ⟨o, ho, hb⟩
        · simp only [beginAs, hb]
          exact Or.inl ⟨s, ht⟩
        · simp only [beginAs, hb]
          exact Or.inr ho
      | waiting n => exact accounts_ready hl (h.accounts _ hq)
      | ended o => exact accounts_ready hl (h.accounts _ hq)
    · rw [hasScheduled_eq_false_iff]
      intro hm
      obtain ⟨q, hq, hqs⟩ := List.mem_map.1 hm
      cases q with
      | scheduled =>
        rcases hbegun with ⟨n, s, ht, hb⟩ | ⟨o, ho, hb⟩
        · simp [beginAs, hb] at hqs
        · simp [beginAs, hb] at hqs
      | waiting n => cases hqs
      | ended o => cases hqs
  · have hid : a.beginRequests = a := by simp [Assembler.beginRequests, hs]
    rw [hid]
    exact ⟨h, by simpa using hs⟩

end Requests

/-! ### Publication -/

section Publication

/-- Answering a build accounts for its requests when the outcome is published or a cancellation. -/
theorem accounts_answerAll {b : Assembler} {n : ℕ} {o : Outcome}
    (ho : o = .cancelled ∨ b.Published o)
    (hb : ∀ r ∈ b.requests, r ≠ .waiting n → b.Accounts r) :
    ∀ r ∈ (b.answerAll n o).requests, (b.answerAll n o).Accounts r := by
  intro r hr
  rcases mem_answerAll hr with rfl | ⟨hr, hn⟩
  · exact ho
  · exact hb r hr hn

theorem Invariant.publishLate (h : a.Invariant) : a.publishLate.Invariant := by
  unfold Assembler.publishLate
  rcases hl : a.late with _ | ⟨n, t⟩
  · exact h
  · obtain ⟨ht, hk⟩ := h.coherent.late n t hl
    have hd : ¬a.done = true := fun hd => by
      rw [(h.coherent.settled hd).2] at hl
      cases hl
    obtain ⟨hr, he⟩ := not_done_iff.1 hd
    have hreg (r : Request) (hm : r ∈ a.requests) (hn : r ≠ .waiting n) :
        ({ a with error := some (n, t), late := none } : Assembler).Accounts r := by
      have ha := h.accounts r hm
      cases r with
      | scheduled => trivial
      | waiting m =>
        rcases ha with ⟨s, hs⟩ | ⟨t', hl'⟩
        · rw [ht] at hs
          cases hs
        · rw [hl] at hl'
          cases hl'
          exact absurd rfl hn
      | ended o => exact ha.imp_right fun ho => absurd ho.done hd
    simp only [if_pos hk]
    refine ⟨?_, accounts_answerAll (Or.inr (Or.inr ⟨n, t, rfl, rfl⟩)) hreg⟩
    refine { h.coherent with
      single := Or.inl hr, settled := fun _ => ⟨ht, rfl⟩, late := ?_, failed := ?_ }
    · rintro m t' ⟨⟩
    · rintro m t' ⟨⟩
      exact hk

theorem late_publishLate : a.publishLate.late = none := by
  unfold publishLate
  rcases hl : a.late with _ | ⟨n, t⟩
  · exact hl
  · rfl

theorem task_publishLate : a.publishLate.task = a.task := by
  unfold publishLate
  rcases a.late with _ | ⟨n, t⟩
  · rfl
  · dsimp only
    split_ifs <;> rfl

theorem publishLate_of_late_eq_none (h : a.late = none) : a.publishLate = a := by
  unfold publishLate
  rw [h]

/-- A request that does not wait for the build under way has not begun or was cancelled, which is
no concern of any assembler. -/
theorem Invariant.accounts_of_running (h : a.Invariant) {n : ℕ} {s : Stage}
    (ht : a.task = .running n s) {r : Request} (hm : r ∈ a.requests) (hn : r ≠ .waiting n)
    (b : Assembler) : b.Accounts r := by
  have ha := h.accounts r hm
  cases r with
  | scheduled => trivial
  | waiting m =>
    rcases ha with ⟨s', hs'⟩ | ⟨t, hl⟩
    · rw [ht] at hs'
      cases hs'
      exact absurd rfl hn
    · rw [late_eq_none_of_running h.coherent ht] at hl
      cases hl
  | ended o =>
    rcases ha with rfl | ho
    · exact Or.inl rfl
    · exact absurd ho.done (not_done_of_running h.coherent ht)

/-- A failure of a package is published. -/
theorem Invariant.publish_error (h : a.Invariant) {n : ℕ} {s : Stage} (ht : a.task = .running n s)
    {t : Trace} (hk : t.kind = .initialization) : (a.publish n (.error t)).Invariant := by
  have hl := late_eq_none_of_running h.coherent ht
  have hd := not_done_of_running h.coherent ht
  obtain ⟨hr, _⟩ := not_done_iff.1 hd
  simp only [publish, if_pos hk]
  refine ⟨?_, accounts_answerAll (Or.inr (Or.inr ⟨n, t, rfl, rfl⟩)) fun r hm hn => ?_⟩
  · refine { h.coherent.forget hd h.coherent.kind_of_late with
      single := Or.inl hr, settled := fun _ => ⟨rfl, hl⟩, failed := ?_ }
    rintro m t' ⟨⟩
    exact hk
  · exact h.accounts_of_running ht hm hn _

/-- The registry of loads that succeeded is published, and it is reported as complete. -/
theorem Invariant.publish_ok (h : a.Invariant) {n : ℕ} {s : Stage} (ht : a.task = .running n s)
    {loaded : List Registry} (hs : a.Supports (.settled (.ok loaded))) :
    (a.publish n (.ok loaded)).Invariant := by
  have hl := late_eq_none_of_running h.coherent ht
  have hd := not_done_of_running h.coherent ht
  obtain ⟨hr, he⟩ := not_done_iff.1 hd
  obtain ⟨asked, rfl, hsucc, earlier, recent, hlog, hperm⟩ := hs
  have hord : ∀ l ∈ a.loadsAfter asked, l.delivery.IsOrderly := fun l hl =>
    Load.isOrderly_of_mem_askAll h.coherent.orderly hl
  obtain ⟨keys, hkeys, _⟩ := Registry.languages_build a.config
    (fun p hp => Load.isTextual_of_mem_registries hord hp)
  simp only [publish, hkeys]
  refine ⟨?_, accounts_answerAll (Or.inr (Or.inl ⟨n, _, rfl, rfl⟩)) fun r hm hn => ?_⟩
  · refine { h.coherent.forget hd h.coherent.kind_of_late with
      single := Or.inr he, settled := fun _ => ⟨rfl, hl⟩, stage := ?_, unready := ?_,
      complete := ?_ }
    · rintro m q ⟨⟩
    · rintro ⟨⟩
    · rintro m r ⟨⟩
      refine ⟨asked, earlier, recent, keys, hsucc, rfl, hperm, ?_, fun e hm => ?_⟩
      · show a.log ++ [Event.registryReady keys] = _
        rw [hlog]
      · exact h.coherent.unready hr e (by rw [hlog]; exact List.mem_append_left _ hm)
  · exact h.accounts_of_running ht hm hn _

end Publication

/-! ### A build goes on -/

section Builds

/-- The loads that take at most so many ticks are those that take less and those that take as
many. -/
theorem events_filter_le (loads : List Load) (elapsed : ℕ) :
    (Load.events (loads.filter fun l => l.delivery.ticks < elapsed) ++
      Load.events (loads.filter fun l => l.delivery.ticks == elapsed)).Perm
    (Load.events (loads.filter fun l => l.delivery.ticks ≤ elapsed)) := by
  have hsplit := List.filter_append_perm (fun l : Load => decide (l.delivery.ticks < elapsed))
    (loads.filter fun l => l.delivery.ticks ≤ elapsed)
  rw [List.filter_filter, List.filter_filter] at hsplit
  have hlt : (loads.filter fun l => l.delivery.ticks < elapsed) =
      loads.filter fun l =>
        decide (l.delivery.ticks < elapsed) && decide (l.delivery.ticks ≤ elapsed) := by
    refine List.filter_congr fun l _ => ?_
    by_cases h : l.delivery.ticks < elapsed
    · simp [h, h.le]
    · simp [h]
  have heq : (loads.filter fun l => l.delivery.ticks == elapsed) =
      loads.filter fun l =>
        !decide (l.delivery.ticks < elapsed) && decide (l.delivery.ticks ≤ elapsed) := by
    refine List.filter_congr fun l _ => ?_
    rw [Bool.eq_iff_iff]
    simp
    omega
  rw [hlt, heq]
  unfold Load.events
  rw [← List.filterMap_append]
  exact hsplit.filterMap _

/-- What a build has done when the loads of its next tick have finished: either one of them failed,
or all loads up to that tick succeeded and have been reported. -/
theorem Coherent.supports_finishLoads (h : a.Coherent) {n elapsed : ℕ} {asked : List String}
    (hsucc : ∀ l ∈ a.loadsAfter asked, l.delivery.ticks < elapsed → l.Succeeds)
    (hrep : Reported a.log ((a.loadsAfter asked).filter fun l => l.delivery.ticks < elapsed)) :
    ∃ s, (a.finishLoads n elapsed (a.loadsAfter asked)).task = .running n s ∧
      (a.finishLoads n elapsed (a.loadsAfter asked)).Supports s := by
  have hord : ∀ l ∈ (a.loadsAfter asked).filter (fun l => l.delivery.ticks == elapsed),
      l.delivery.IsOrderly := fun l hl =>
    Load.isOrderly_of_mem_askAll h.orderly (List.mem_of_mem_filter hl)
  unfold finishLoads
  refine ⟨_, rfl, ?_⟩
  rcases hf : Load.firstFailure? ((a.loadsAfter asked).filter fun l => l.delivery.ticks == elapsed)
    with _ | t
  · have hnow := Load.succeeds_of_firstFailure? hf
    have hall : ∀ l ∈ a.loadsAfter asked, l.delivery.ticks ≤ elapsed → l.Succeeds := by
      intro l hl hle
      rcases hle.lt_or_eq with hlt | heq
      · exact hsucc l hl hlt
      · exact hnow l (List.mem_filter.2 ⟨hl, by simp [heq]⟩)
    obtain ⟨earlier, recent, hlog, hperm⟩ := hrep
    have hrep' : Reported
        (a.log ++ Load.events ((a.loadsAfter asked).filter fun l => l.delivery.ticks == elapsed))
        ((a.loadsAfter asked).filter fun l => l.delivery.ticks ≤ elapsed) := by
      refine ⟨earlier, recent ++ Load.events _, ?_, (hperm.append_right _).trans
        (events_filter_le _ elapsed)⟩
      rw [hlog, List.append_assoc]
    dsimp only
    split_ifs with hfin
    · have hle : ∀ l ∈ a.loadsAfter asked, l.delivery.ticks ≤ elapsed := by simpa using hfin
      rw [List.filter_eq_self.2 fun l hl => decide_eq_true (hle l hl)] at hrep'
      exact ⟨asked, rfl, fun l hl => hall l hl (hle l hl), hrep'⟩
    · exact ⟨asked, rfl, hall, hrep'⟩
  · have hk := Load.kind_of_firstFailure? hord hf
    dsimp only
    split_ifs
    · exact hk
    · exact hk

/-- A build under way comes to a stage that it supports. The log may grow by reports that do not say
that the registry is complete. -/
theorem Invariant.proceed (h : a.Invariant) {n : ℕ} {s s' : Stage} {log : List Event}
    (ht : a.task = .running n s) (hlog : ∀ e ∈ log, e.isReady = false)
    (hs : ({ a with log := log, task := .running n s' } : Assembler).Supports s') :
    ({ a with log := log, task := .running n s' } : Assembler).Invariant := by
  have hd := not_done_of_running h.coherent ht
  have hl := late_eq_none_of_running h.coherent ht
  refine ⟨{ h.coherent with
    settled := fun hd' => absurd hd' hd, stage := ?_, unbroken := ?_, late := ?_,
    unready := fun _ => hlog, complete := ?_ }, fun r hr => ?_⟩
  · rintro m q ⟨⟩
    exact hs
  · rintro m t ⟨⟩
  · intro m t hq
    rw [show a.late = some (m, t) from hq] at hl
    cases hl
  · intro m r hr
    exact absurd (Published.done (Or.inl ⟨m, r, hr, rfl⟩)) hd
  · by_cases hn : r = .waiting n
    · subst hn
      exact Or.inl ⟨s', rfl⟩
    · exact h.accounts_of_running ht hr hn _

/-- Finishing loads keeps the invariant, when all loads of fewer ticks succeeded and were
reported. -/
theorem Invariant.finishLoads (h : a.Invariant) {n elapsed : ℕ} {s : Stage} {asked : List String}
    (ht : a.task = .running n s)
    (hsucc : ∀ l ∈ a.loadsAfter asked, l.delivery.ticks < elapsed → l.Succeeds)
    (hrep : Reported a.log ((a.loadsAfter asked).filter fun l => l.delivery.ticks < elapsed)) :
    (a.finishLoads n elapsed (a.loadsAfter asked)).Invariant := by
  obtain ⟨s', ht', hs'⟩ := h.coherent.supports_finishLoads (n := n) hsucc hrep
  obtain ⟨hr, _⟩ := not_done_iff.1 (not_done_of_running h.coherent ht)
  unfold Assembler.finishLoads at ht' hs' ⊢
  cases ht'
  refine h.proceed ht (fun e he => ?_) hs'
  rcases List.mem_append.1 he with he | he
  · exact h.coherent.unready hr e he
  · refine Load.isReady_of_mem_events (fun l hl => ?_) he
    exact Load.isOrderly_of_mem_askAll h.coherent.orderly (List.mem_of_mem_filter hl)

/-- A build that goes on for one turn keeps the invariant. -/
theorem Invariant.advance (h : a.Invariant) {n : ℕ} {s : Stage} (ht : a.task = .running n s) :
    (a.advance n s).Invariant := by
  have hs := h.coherent.stage n s ht
  obtain ⟨hr, _⟩ := not_done_iff.1 (not_done_of_running h.coherent ht)
  rcases s with _ | ⟨elapsed, loads⟩ | t | t | loaded
  · -- without packages the build is over at once; otherwise no load has finished before tick zero
    unfold Assembler.advance
    split_ifs with hp
    · refine h.publish_ok ht ⟨[], ?_, ?_, a.log, [], by simp, ?_⟩ <;>
        simp [loadsAfter, List.isEmpty_iff.1 hp, Load.askAll, Load.registries, Load.events]
    · have h' : ({ a with asked := a.asked ++ a.config.packages } : Assembler).Invariant :=
        ⟨{ h.coherent with }, h.accounts⟩
      have hnone : ∀ l ∈ a.loadsAfter a.asked, l.delivery.ticks < 0 → l.Succeeds := by
        intro l _ hl
        omega
      refine h'.finishLoads ht hnone ⟨a.log, [], by simp, ?_⟩
      simp [Load.events]
  · obtain ⟨asked, rfl, hsucc, hrep⟩ := hs
    refine h.finishLoads ht (fun l hl hlt => hsucc l hl (by omega)) ?_
    simpa only [Nat.lt_succ_iff] using hrep
  · exact h.proceed ht (h.coherent.unready hr) hs
  · exact h.publish_error ht hs
  · exact h.publish_ok ht hs

end Builds

end CodeHighlight.Assembler
