import CodeHighlight.Proofs.SharedOutcome

/-!
# Requests that are all served

When nobody withdraws a request, nobody cancels the build, and a loop is left only when its requests
have ended, all requests end with the outcome of the first build. Main statements: `Served.turn` and
`Served.perform_get`.

Such an assembler is on the trail of the first build (`Trail`), its requests follow that build
(`Steady`), and it never builds for nobody (`Served.attended`); hence a loop whose requests have all
ended can be left.
-/

namespace CodeHighlight.Assembler
variable {a : Assembler} {config : Config} {loader : Loader}

/-- The deliveries of an orderly loader come to a registry or to a failure of initialization. -/
theorem isShared_firstOutcome (config : Config) (orderly : loader.IsOrderly) :
    (firstOutcome config loader).IsShared := by
  have horderly : ∀ l ∈ Load.askAll loader [] config.packages, l.delivery.IsOrderly :=
    fun _ hl => Load.isOrderly_of_mem_askAll orderly hl
  unfold firstOutcome Load.verdict
  rcases hd : Load.decisive? (Load.askAll loader [] config.packages) with _ | l
  · obtain ⟨keys, hkeys, _⟩ := Registry.languages_build config fun r hr =>
      Load.isTextual_of_mem_registries horderly hr
    exact isShared_given_ok_iff.2 ⟨keys, hkeys⟩
  · obtain ⟨hmem, hfails⟩ := Load.mem_of_decisive? hd
    obtain ⟨t, ht⟩ := Option.isSome_iff_exists.1 hfails
    rw [Option.bind_some, ht]
    refine Outcome.isShared_failure_iff.2 ?_
    rcases Load.outcome_spec (horderly l hmem) with ⟨r, keys, hr, _⟩ | ⟨t', ht', hkind⟩
    · rw [Load.failure?, hr] at ht
      cases ht
    · rw [Load.failure?, ht'] at ht
      cases ht
      exact hkind

/-- All requests have ended or will end with the outcome of the first build: none was cancelled, and
a build under way has a request that waits for it. -/
structure Served (config : Config) (loader : Loader) (a : Assembler) : Prop where
  trail : a.Trail config loader
  steady : a.Steady config loader
  attended : a.IsBuilding → ∃ r ∈ a.requests, r.isOpen = true
  uncancelled : Request.ended .cancelled ∉ a.requests

theorem served_initial (orderly : loader.IsOrderly) :
    (initial config loader).Served config loader :=
  ⟨trail_initial orderly, steady_initial, by rintro ⟨_, _, ⟨⟩⟩, by rintro ⟨⟩⟩

/-- A request that has ended has the outcome of the first build. -/
theorem Served.outcome_eq (h : a.Served config loader) {o : Outcome} (ho : .ended o ∈ a.requests) :
    o = firstOutcome config loader ∧ a.done = true := by
  rcases h.steady.outcome_of_ended ho with rfl | ho'
  · exact absurd ho h.uncancelled
  · exact ho'

theorem isIdle_iff : a.isIdle = true ↔ ∀ r ∈ a.requests, r.isOpen = false := by
  simp [isIdle]

/-- When all requests have ended, all have the outcome of the first build. -/
theorem Served.requests_of_isIdle (h : a.Served config loader) (hidle : a.isIdle = true) :
    a.requests = List.replicate a.requests.length (.ended (firstOutcome config loader)) := by
  refine List.eq_replicate_length.2 fun r hr => ?_
  have hclosed := isIdle_iff.1 hidle r hr
  cases r with
  | ended o => rw [(h.outcome_eq hr).1]
  | _ => cases hclosed

theorem Served.not_isBuilding_of_isIdle (h : a.Served config loader) (hidle : a.isIdle = true) :
    ¬a.IsBuilding := by
  intro hb
  obtain ⟨r, hr, hopen⟩ := h.attended hb
  rw [isIdle_iff.1 hidle r hr] at hopen
  cases hopen

theorem Steady.begun_ne_cancelled (h : a.Steady config loader) : a.begun ≠ .ended .cancelled := by
  rcases h.build with hnew | hunder | hkeeps
  · rw [begun_of_core_initial hnew]
    simp
  · rw [hunder.begun]
    simp
  · rw [hkeeps.begun, ne_eq, Request.ended.injEq]
    exact given_ne_cancelled _ _ _

/-- A request that follows the build has ended before, or ends with it. -/
theorem followAs_eq_ended {b r : Request} {o : Outcome} (h : followAs b r = .ended o) :
    r = .ended o ∨ b = .ended o := by
  cases r with
  | ended q => exact Or.inl h
  | _ => exact Or.inr h

/-- A turn that starts the first build has a request to begin. -/
theorem Steady.hasScheduled_of_isBuilding_turn (h : a.Steady config loader) (hb : ¬a.IsBuilding)
    (hturn : a.turn.IsBuilding) : a.hasScheduled = true := by
  rcases h.build with hnew | hunder | hkeeps
  · by_contra hs
    rw [h.turn_of_idle hnew (by simpa using hs)] at hturn
    exact hb hturn
  · exact absurd hunder.isBuilding hb
  · exact absurd hturn (h.turn_of_keeps hkeeps).1.not_isBuilding

/-- The request with the given index is open. -/
def OpenAt (a : Assembler) (i : ℕ) : Prop :=
  ∃ r, a.requests[i]? = some r ∧ r.isOpen = true

theorem openAt_request {i : ℕ} :
    a.request.OpenAt i ↔ a.OpenAt i ∨ i = a.requests.length := by
  unfold OpenAt
  show (∃ r, (a.requests ++ [.scheduled])[i]? = some r ∧ _) ↔ _
  rcases lt_trichotomy i a.requests.length with hi | rfl | hi
  · simp [List.getElem?_append_left hi, hi.ne]
  · simp [Request.isOpen]
  · have hnone : a.requests[i]? = none := List.getElem?_eq_none hi.le
    rw [List.getElem?_eq_none (by simpa using hi)]
    simp [hnone, hi.ne']

theorem outcome?_eq_none_iff {r : Request} : r.outcome? = none ↔ r.isOpen = true := by
  cases r <;> simp [Request.outcome?, Request.isOpen]

/-! ### Moves -/

section Orderly
variable (orderly : loader.IsOrderly)
include orderly

theorem Served.request (h : a.Served config loader) : a.request.Served config loader := by
  have hshared := isShared_firstOutcome config orderly
  refine ⟨h.trail.move orderly (m := .request) (by simp) (by simp),
    h.steady.move hshared (m := .request) (by simp), fun _ => ?_, ?_⟩
  · exact ⟨.scheduled, List.mem_append_right _ (List.mem_singleton_self _), rfl⟩
  · intro hm
    rcases List.mem_append.1 hm with hm | hm
    · exact h.uncancelled hm
    · cases List.mem_singleton.1 hm

/-- A loop whose requests have all ended can be left. -/
theorem Served.leaveLoop (h : a.Served config loader) (hidle : a.isIdle = true) :
    a.leaveLoop.Served config loader := by
  have hshared := isShared_firstOutcome config orderly
  have hb := h.not_isBuilding_of_isIdle hidle
  have hb' : ¬a.leaveLoop.IsBuilding := by
    rintro ⟨n, s, hs⟩
    have hcore := task_of_core (core_leaveLoop h.trail.late hb)
    exact hb ⟨n, s, hcore.symm.trans hs⟩
  exact ⟨h.trail.move orderly (m := .leave) (by simp) fun _ => hb,
    h.steady.move hshared (m := .leave) fun _ => hb, fun hbuild => absurd hbuild hb',
    by rintro ⟨⟩⟩

/-- **A turn serves all requests alike**: those that are open come to what the build comes to. -/
theorem Served.turn (h : a.Served config loader) :
    a.turn.Served config loader ∧ a.turn.requests = a.requests.map (followAs a.turn.begun) := by
  have hshared := isShared_firstOutcome config orderly
  obtain ⟨hsteady, hcases⟩ := h.steady.turn hshared
  have hreq : a.turn.requests = a.requests.map (followAs a.turn.begun) := by
    rcases hcases with ⟨hnew, hs, heq⟩ | ⟨_, hreq⟩
    · -- no build has begun, so that there are no requests at all
      have hnil : a.requests = [] := List.eq_nil_iff_forall_not_mem.2 fun r hr => by
        rcases h.steady.requests r hr with rfl | rfl | rfl
        · exact hasScheduled_eq_false_iff.1 hs hr
        · exact h.uncancelled hr
        · rw [begun_of_core_initial hnew] at hr
          exact hasScheduled_eq_false_iff.1 hs hr
      rw [heq, hnil]
      rfl
    · exact hreq
  refine ⟨⟨h.trail.move orderly (m := .turn) (by simp) (by simp), hsteady, fun hb => ?_, ?_⟩, hreq⟩
  · have hopen : ∃ r ∈ a.requests, r.isOpen = true := by
      by_cases hb' : a.IsBuilding
      · exact h.attended hb'
      · have hs := h.steady.hasScheduled_of_isBuilding_turn hb' hb
        exact ⟨.scheduled, hasScheduled_iff.1 hs, rfl⟩
    obtain ⟨r, hr, hopen⟩ := hopen
    refine ⟨a.turn.begun, ?_, by rw [(hsteady.isUnderway hb).begun]; rfl⟩
    rw [hreq]
    exact List.mem_map.2 ⟨r, hr, followAs_of_isOpen hopen⟩
  · rw [hreq]
    intro hm
    obtain ⟨r, hr, hrc⟩ := List.mem_map.1 hm
    rcases followAs_eq_ended hrc with rfl | hbegun
    · exact h.uncancelled hr
    · exact hsteady.begun_ne_cancelled hbegun

/-- The requests that a turn leaves open are those that were open and have no outcome now. -/
theorem Served.openAt_turn (h : a.Served config loader) {i : ℕ} :
    a.turn.OpenAt i ↔ a.OpenAt i ∧ (a.turn.requests[i]?).bind (·.outcome?) = none := by
  unfold OpenAt
  rw [(h.turn orderly).2, List.getElem?_map]
  rcases a.requests[i]? with _ | r
  · simp
  · cases r <;> simp [followAs, outcome?_eq_none_iff, Request.isOpen]

/-! ### Waiting until all requests have ended -/

theorem Served.play_turns (h : a.Served config loader) (n : ℕ) :
    (a.play (List.replicate n .turn)).Served config loader ∧
      (a.play (List.replicate n .turn)).requests.length = a.requests.length := by
  induction n generalizing a with
  | zero => exact ⟨h, rfl⟩
  | succ n ih =>
    obtain ⟨hturn, hreq⟩ := h.turn orderly
    obtain ⟨hserved, hlength⟩ := ih hturn
    refine ⟨hserved, hlength.trans ?_⟩
    rw [hreq, List.length_map]

/-- After as many turns as are left to come, all requests have ended. -/
theorem Served.isIdle_play_turns (h : a.Served config loader) {n : ℕ} (hn : a.turnsAhead ≤ n) :
    (a.play (List.replicate n .turn)).isIdle = true := by
  have hshared := isShared_firstOutcome config orderly
  have hturns : ∀ m ∈ List.replicate n Move.turn, m = .turn := fun m hm =>
    List.eq_of_mem_replicate hm
  have hun : a.Uninterrupted (List.replicate n .turn) := uninterrupted_replicate_turn n
  obtain ⟨_, hlength⟩ := h.play_turns orderly n
  refine isIdle_iff.2 fun r hr => ?_
  obtain ⟨i, hi, hri⟩ := List.getElem_of_mem hr
  have hr? : (a.play (List.replicate n .turn)).requests[i]? = some r :=
    List.getElem?_eq_some_iff.2 ⟨hi, hri⟩
  obtain ⟨q, hq⟩ : ∃ q, a.requests[i]? = some q :=
    ⟨_, List.getElem?_eq_getElem (hi.trans_eq hlength)⟩
  -- the request is where it was, and it has ended before or ends now
  cases q with
  | ended o =>
    have hended := h.steady.getElem?_play_of_ended hshared hun
      (fun m hm => by rw [hturns m hm]; simp) hq
    rw [hr?] at hended
    cases hended
    rfl
  | _ =>
    have hended := h.steady.getElem?_play_of_open hshared hun
      (fun m hm => by rw [hturns m hm]; simp) hq rfl (by rw [List.count_replicate_self]; exact hn)
    rw [hr?] at hended
    cases hended
    rfl

/-- Requests that have ended stay as they are. -/
theorem Served.turn_of_isIdle (h : a.Served config loader) (hidle : a.isIdle = true) :
    a.turn.isIdle = true := by
  rw [isIdle_iff, (h.turn orderly).2]
  intro r hr
  obtain ⟨q, hq, rfl⟩ := List.mem_map.1 hr
  have hclosed := isIdle_iff.1 hidle q hq
  cases q with
  | ended o => rfl
  | _ => cases hclosed

theorem Served.play_turns_of_isIdle (h : a.Served config loader) (hidle : a.isIdle = true) (n : ℕ) :
    (a.play (List.replicate n .turn)).isIdle = true := by
  induction n generalizing a with
  | zero => exact hidle
  | succ n ih => exact ih (h.turn orderly).1 (h.turn_of_isIdle orderly hidle)

/-- When no build is under way, a host waits long enough for all requests. -/
theorem Served.isIdle_turnsUntil (h : a.Served config loader) (hb : ¬a.IsBuilding) :
    (turnsUntil isIdle a.turnsLeft a).isIdle = true := by
  obtain ⟨m, hm, rfl | hstop⟩ := exists_turnsUntil isIdle a.turnsLeft a
  · rw [hm]
    rcases h.steady.build with hnew | hunder | hkeeps
    · refine h.isIdle_play_turns orderly (le_of_eq ?_)
      have htask : a.task = .none := (task_of_core hnew).trans rfl
      have hasked : a.asked = [] := (asked_of_core hnew).trans rfl
      rw [turnsAhead, turnsLeft, htask, hasked]
      rfl
    · exact absurd hunder.isBuilding hb
    · -- the outcome is there: the first turn gives it to all requests
      have hleft : a.turnsLeft =
          Load.longest (Load.askAll a.loader a.asked a.config.packages) + 3 + 1 := by
        rw [turnsLeft, hkeeps.task]
      rw [hleft, List.replicate_succ]
      refine (h.turn orderly).1.play_turns_of_isIdle orderly ?_ _
      rw [isIdle_iff, (h.turn orderly).2, (h.steady.turn_of_keeps hkeeps).1.begun]
      intro r hr
      obtain ⟨q, _, rfl⟩ := List.mem_map.1 hr
      cases q <;> rfl
  · exact hstop

theorem Served.requestMany (h : a.Served config loader) (n : ℕ) :
    (a.requestMany n).Served config loader := by
  induction n generalizing a with
  | zero => exact h
  | succ n ih => exact ih (h.request orderly)

/-- **Requests that are made together** are all given the outcome of the first build, and then their
loop can be left. -/
theorem Served.perform_get (h : a.Served config loader) (hr : a.requests = []) (n : ℕ) :
    (a.perform (.get n)).1.outcomes = List.replicate n (firstOutcome config loader) ∧
      (a.perform (.get n)).2.Served config loader ∧ (a.perform (.get n)).2.requests = [] := by
  have hmany : (a.requestMany n).Served config loader := h.requestMany orderly n
  have hrequests : (a.requestMany n).requests = List.replicate n .scheduled := by
    rw [requestMany_eq, hr]
    rfl
  have hb : ¬(a.requestMany n).IsBuilding := by
    rw [requestMany_eq]
    exact h.not_isBuilding_of_isIdle (by rw [isIdle_iff, hr]; rintro _ ⟨⟩)
  have hidle := hmany.isIdle_turnsUntil orderly hb
  obtain ⟨m, hm, -⟩ := exists_turnsUntil isIdle (a.requestMany n).turnsLeft (a.requestMany n)
  obtain ⟨hlast, hlength⟩ := hmany.play_turns orderly m
  rw [hm] at hidle
  set b := (a.requestMany n).play (List.replicate m .turn) with hbdef
  have hfinish : (a.requestMany n).finish = b.play (List.replicate 2 .turn) := by
    rw [finish, hm]
    rfl
  obtain ⟨hend, hlength'⟩ := hlast.play_turns orderly 2
  have hidle' := hlast.play_turns_of_isIdle orderly hidle 2
  have hreq := hend.requests_of_isIdle hidle'
  rw [hlength', hlength, hrequests, List.length_replicate] at hreq
  have hidle'' : (b.play (List.replicate 2 .turn)).turn.isIdle = true :=
    hend.play_turns_of_isIdle orderly hidle' 1
  show (a.requestMany n).finish.outcomes = _ ∧
    (a.requestMany n).finish.turn.leaveLoop.Served _ _ ∧ _
  rw [hfinish]
  refine ⟨?_, (hend.turn orderly).1.leaveLoop orderly hidle'', rfl⟩
  rw [outcomes, hreq, List.map_replicate]
  rfl

end Orderly
end CodeHighlight.Assembler
