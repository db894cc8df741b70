import CodeHighlight.Proofs.HostSteps

/-!
# What is published stays

Main statement: `outcome_permanent`. Whatever steps a host makes, a registry and a failure are never
both published; once one of them is, all requests of later steps have it, and later steps change
nothing: no package is asked for, no event is reported, and cancelling has no effect. The registry
is reported as complete once if it was published and never otherwise, behind the reports of the
loads of its build.

Once something is published a turn only answers the requests that have not begun (`answered`), so
that what a host sees of a later step can be said without the assembler (`HostStep.sight`). Single
moves change nothing but requests either (`Invariant.core_move_of_published`).
-/

namespace CodeHighlight
open Assembler (beginAs)

/-- What a host sees of a step when an outcome is published: its requests have that outcome, but for
one that is cancelled before it begins. -/
def HostStep.sight (o : Outcome) : HostStep → Sight
  | .status | .cancel => {}
  | .get n => ⟨List.replicate n o, none⟩
  | .getThenCancel _ again => ⟨if again then [o, o] else [o], some true⟩
  | .cancelOne n which .before => ⟨(List.replicate n o).set which .cancelled, none⟩
  | .cancelOne n _ _ => ⟨List.replicate n o, none⟩
  | .abandon _ | .close _ => ⟨[], some true⟩

namespace Assembler
variable {c : Config} {a : Assembler} {o : Outcome}

/-! ### Later requests -/

/-- The assembler when the requests that have not begun have been answered. -/
def answered (a : Assembler) (o : Outcome) : Assembler :=
  { a with requests := a.requests.map (beginAs (.ended o)) }

theorem begun_of_published (h : a.Coherent) (ho : a.Published o) : a.begun = .ended o := by
  have hn : a.needsBuild = false := by simp [needsBuild, ho.done]
  rcases begun_spec h hn with ⟨n, s, ht, _⟩ | ⟨o', ho', hb⟩
  · exact absurd ho.done (not_done_of_running h ht)
  · rw [hb, h.published_unique ho' ho]

theorem hasScheduled_answered : (a.answered o).hasScheduled = false := by
  rw [hasScheduled_eq_false_iff]
  intro hm
  obtain ⟨r, _, hr⟩ := List.mem_map.1 hm
  cases r <;> cases hr

theorem answered_eq_self (h : a.hasScheduled = false) : a.answered o = a := by
  unfold answered
  rw [map_beginAs_of_not_hasScheduled h]

theorem answered_answered : (a.answered o).answered o = a.answered o :=
  answered_eq_self hasScheduled_answered

/-- Once something is published, a turn only answers the requests that have not begun. -/
theorem turn_of_published (h : a.Coherent) (ho : a.Published o) : a.turn = a.answered o := by
  obtain ⟨ht, hl⟩ := h.settled ho.done
  rw [turn_of_not_running (by simp [ht]), publishLate_beginRequests hl,
    beginRequests_of_not_needsBuild (by simp [needsBuild, ho.done]), begun_of_published h ho]
  rfl

theorem turn_answered (h : a.Coherent) (ho : a.Published o) :
    (a.answered o).turn = a.answered o := by
  have hturn : (a.answered o).turn = (a.answered o).answered o :=
    turn_of_published (h.withRequests _) ho
  rw [hturn, answered_answered]

theorem turnsUntil_answered (h : a.Coherent) (ho : a.Published o) (stop : Assembler → Bool)
    (n : ℕ) : turnsUntil stop n (a.answered o) = a.answered o := by
  induction n with
  | zero => rfl
  | succ n ih => rw [turnsUntil, turn_answered h ho, ih, ite_self]

theorem turnsUntil_of_published (h : a.Coherent) (ho : a.Published o) (stop : Assembler → Bool)
    (n : ℕ) : turnsUntil stop n a = a ∨ turnsUntil stop n a = a.answered o := by
  cases n with
  | zero => exact Or.inl rfl
  | succ n =>
    rw [turnsUntil]
    split_ifs
    · exact Or.inl rfl
    · rw [turn_of_published h ho, turnsUntil_answered h ho]
      exact Or.inr rfl

theorem finish_of_published (h : a.Coherent) (ho : a.Published o) : a.finish = a.answered o := by
  unfold finish
  rcases turnsUntil_of_published h ho isIdle a.turnsLeft with heq | heq
  · rw [heq, turn_of_published h ho, turn_answered h ho]
  · rw [heq, turn_answered h ho, turn_answered h ho]

/-- Every phase but the first finds all requests answered. -/
theorem reach_of_published (h : a.Coherent) (ho : a.Published o) {phase : Phase}
    (hp : phase ≠ .before) : a.reach phase = a.answered o := by
  cases phase with
  | before => exact absurd rfl hp
  | finished => exact finish_of_published h ho
  | loading =>
    show a.turn.turn.turn.turn = _
    rw [turn_of_published h ho, turn_answered h ho, turn_answered h ho, turn_answered h ho]

theorem cancel_of_published (h : a.Coherent) (ho : a.Published o) : a.cancel = a :=
  cancel_of_task_eq_none (h.settled ho.done).1

theorem started_of_published (h : a.Coherent) (ho : a.Published o) : a.started = true := by
  rw [started, (h.settled ho.done).1]
  exact ho.done

/-! ### Later steps -/

theorem withoutRequests_eq_self (hr : a.requests = []) (hl : a.late = none) :
    ({ a with requests := [], late := none } : Assembler) = a := by
  cases a
  cases hr
  cases hl
  rfl

theorem outcomes_replicate (n : ℕ) :
    ({ a with requests := List.replicate n (.ended o) } : Assembler).outcomes =
      List.replicate n o := by
  simp [outcomes, Request.outcome?]

/-- Requests that are made when something is published are answered with it. -/
theorem answered_requestMany (hr : a.requests = []) (n : ℕ) :
    (a.requestMany n).answered o = { a with requests := List.replicate n (.ended o) } := by
  rw [requestMany_eq, hr]
  simp [answered, beginAs]

theorem cancelRequest_of_ended (n which : ℕ) :
    ({ a with requests := List.replicate n (.ended o) } : Assembler).cancelRequest which =
      { a with requests := List.replicate n (.ended o) } := by
  unfold cancelRequest
  congr 1
  refine List.ext_getElem? fun j => ?_
  rw [List.getElem?_modify, List.getElem?_replicate]
  split_ifs <;> simp [Request.isOpen]

/-- One of several requests is cancelled before it begins; the others are answered. -/
theorem outcomes_cancelRequest (hr : a.requests = []) (n which : ℕ) :
    (((a.requestMany n).cancelRequest which).answered o).outcomes =
      (List.replicate n o).set which .cancelled := by
  rw [requestMany_eq, hr, List.nil_append]
  refine List.ext_getElem? fun j => ?_
  simp only [outcomes, answered, cancelRequest, List.getElem?_map, List.getElem?_modify,
    List.getElem?_set, List.getElem?_replicate, List.length_replicate]
  by_cases hj : j < n
  · by_cases hw : which = j
    · simp [hj, hw, Request.isOpen, beginAs, Request.outcome?]
    · simp [hj, hw, beginAs, Request.outcome?]
  · by_cases hw : which = j
    · simp [hj, hw]
    · simp [hj, hw]

section Later

variable (h : a.AtRest c) (ho : a.Published o)
include h ho

/-- The loop of a step ends, and nothing has changed. -/
theorem loopEnd_of_published (rs : List Request) :
    ({ a with requests := rs } : Assembler).turn.leaveLoop = a ∧
      ({ a with requests := rs } : Assembler).turn.closeLoop = a := by
  obtain ⟨ht, hl⟩ := h.invariant.coherent.settled ho.done
  have hturn : ({ a with requests := rs } : Assembler).turn =
      ({ a with requests := rs } : Assembler).answered o :=
    turn_of_published (h.invariant.coherent.withRequests rs) ho
  have hidle : ∀ n s, (({ a with requests := rs } : Assembler).answered o).task ≠ .running n s :=
    fun n s hs => by cases ht.symm.trans hs
  rw [hturn, leaveLoop_of_not_running hidle, closeLoop_of_not_running hidle,
    publishLate_of_late_eq_none (a := ({ a with requests := rs } : Assembler).answered o) hl]
  exact ⟨withoutRequests_eq_self h.requests hl, withoutRequests_eq_self h.requests hl⟩

theorem coherent_requestMany (n : ℕ) :
    (a.requestMany n).Coherent ∧ (a.requestMany n).Published o := by
  rw [requestMany_eq]
  exact ⟨h.invariant.coherent.withRequests _, ho⟩

theorem reach_requestMany (n : ℕ) {phase : Phase} (hp : phase ≠ .before) :
    (a.requestMany n).reach phase = { a with requests := List.replicate n (.ended o) } := by
  obtain ⟨hc, hpub⟩ := coherent_requestMany h ho n
  rw [reach_of_published hc hpub hp, answered_requestMany h.requests]

/-- At every phase the assembler differs from what it was in its requests only. -/
theorem exists_reach_requestMany (n : ℕ) (phase : Phase) :
    ∃ rs, (a.requestMany n).reach phase = { a with requests := rs } := by
  by_cases hp : phase = .before
  · subst hp
    exact ⟨_, requestMany_eq n⟩
  · exact ⟨_, reach_requestMany h ho n hp⟩

theorem finish_replicate (n : ℕ) :
    ({ a with requests := List.replicate n (.ended o) } : Assembler).finish =
      { a with requests := List.replicate n (.ended o) } := by
  have hf := finish_of_published
    (h.invariant.coherent.withRequests (List.replicate n (.ended o))) ho
  rw [hf]
  simp [answered, beginAs]

theorem finish_reach_requestMany (n : ℕ) (phase : Phase) :
    ((a.requestMany n).reach phase).finish =
      { a with requests := List.replicate n (.ended o) } := by
  obtain ⟨hc, hpub⟩ := coherent_requestMany h ho n
  by_cases hp : phase = .before
  · subst hp
    show (a.requestMany n).finish = _
    rw [finish_of_published hc hpub, answered_requestMany h.requests]
  · rw [reach_requestMany h ho n hp, finish_replicate h ho]

theorem perform_get (n : ℕ) : a.perform (.get n) = (⟨List.replicate n o, none⟩, a) := by
  have hf := finish_reach_requestMany h ho n .before
  show ((⟨((a.requestMany n).reach .before).finish.outcomes, none⟩ : Sight),
    ((a.requestMany n).reach .before).finish.turn.leaveLoop) = _
  rw [hf, outcomes_replicate, (loopEnd_of_published h ho _).1]

theorem perform_getThenCancel (phase : Phase) (again : Bool) :
    a.perform (.getThenCancel phase again) = (⟨if again then [o, o] else [o], some true⟩, a) := by
  obtain ⟨rs, hrs⟩ := exists_reach_requestMany h ho 1 phase
  have hreach : a.request.reach phase = { a with requests := rs } := hrs
  have hstarted : ({ a with requests := rs } : Assembler).started = true :=
    started_of_published (h.invariant.coherent.withRequests rs) ho
  have hf : (a.request.reach phase).finish = { a with requests := [.ended o] } :=
    finish_reach_requestMany h ho 1 phase
  have hcancel : ({ a with requests := rs } : Assembler).cancel = { a with requests := rs } :=
    cancel_of_published (h.invariant.coherent.withRequests rs) ho
  rw [hreach] at hf
  unfold perform
  dsimp only
  rw [hreach, hcancel, hstarted, hf]
  cases again with
  | false => exact congrArg _ (loopEnd_of_published h ho _).1
  | true =>
    have hg : ({ a with requests := [.ended o] } : Assembler).request.finish =
        { a with requests := [.ended o, .ended o] } :=
      finish_of_published (h.invariant.coherent.withRequests [.ended o, .scheduled]) ho
    rw [if_pos rfl, hg]
    exact congrArg _ (loopEnd_of_published h ho _).1

theorem perform_cancelOne_before (n which : ℕ) :
    a.perform (.cancelOne n which .before) =
      (⟨(List.replicate n o).set which .cancelled, none⟩, a) := by
  obtain ⟨hc, hpub⟩ := coherent_requestMany h ho n
  have hf : ((a.requestMany n).cancelRequest which).finish =
      ((a.requestMany n).cancelRequest which).answered o :=
    finish_of_published (hc.withRequests _) hpub
  show ((⟨((a.requestMany n).cancelRequest which).finish.outcomes, none⟩ : Sight),
    ((a.requestMany n).cancelRequest which).finish.turn.leaveLoop) = _
  rw [hf, outcomes_cancelRequest h.requests, requestMany_eq]
  exact congrArg _ (loopEnd_of_published h ho _).1

theorem perform_cancelOne (n which : ℕ) {phase : Phase} (hp : phase ≠ .before) :
    a.perform (.cancelOne n which phase) = (⟨List.replicate n o, none⟩, a) := by
  unfold perform
  dsimp only
  rw [reach_requestMany h ho n hp, cancelRequest_of_ended, finish_replicate h ho,
    outcomes_replicate, (loopEnd_of_published h ho _).1]

/-- A step that only starts a request finds a build remembered. -/
theorem started_reach_request (phase : Phase) :
    ∃ rs, a.request.reach phase = { a with requests := rs } ∧
      ({ a with requests := rs } : Assembler).started = true := by
  obtain ⟨rs, hrs⟩ := exists_reach_requestMany h ho 1 phase
  exact ⟨rs, hrs, started_of_published (h.invariant.coherent.withRequests rs) ho⟩

theorem perform_abandon (phase : Phase) :
    a.perform (.abandon phase) = (⟨[], some true⟩, a) := by
  obtain ⟨rs, hreach, hstarted⟩ := started_reach_request h ho phase
  unfold perform
  dsimp only
  rw [hreach, hstarted]
  exact congrArg _ (loopEnd_of_published h ho rs).1

theorem perform_close (phase : Phase) : a.perform (.close phase) = (⟨[], some true⟩, a) := by
  obtain ⟨rs, hreach, hstarted⟩ := started_reach_request h ho phase
  unfold perform
  dsimp only
  rw [hreach, hstarted]
  exact congrArg _ (loopEnd_of_published h ho rs).2

/-- **A step after publication** gives its requests what is published and changes nothing. -/
theorem perform_of_published (s : HostStep) : a.perform s = (s.sight o, a) := by
  cases s with
  | status => rfl
  | cancel => exact congrArg _ (cancel_of_published h.invariant.coherent ho)
  | get n => exact perform_get h ho n
  | getThenCancel phase again => exact perform_getThenCancel h ho phase again
  | abandon phase => exact perform_abandon h ho phase
  | close phase => exact perform_close h ho phase
  | cancelOne n which phase =>
    cases phase with
    | before => exact perform_cancelOne_before h ho n which
    | loading => exact perform_cancelOne h ho n which (by simp)
    | finished => exact perform_cancelOne h ho n which (by simp)

theorem performAll_of_published (later : List HostStep) :
    a.performAll later = (later.map (HostStep.sight o), a) := by
  induction later with
  | nil => rfl
  | cons s later ih =>
    rw [performAll, perform_of_published h ho]
    dsimp only
    rw [ih, List.map_cons]

end Later

/-! ### All steps -/

/-- **Steps lead from rest to rest**, and what a request of any of them was given, unless it was
cancelled, is published at their end. -/
theorem AtRest.performAll (h : a.AtRest c) (steps : List HostStep) :
    (a.performAll steps).2.AtRest c ∧ ∀ sight ∈ (a.performAll steps).1, ∀ o ∈ sight.outcomes,
      o = .cancelled ∨ (a.performAll steps).2.Published o := by
  induction steps generalizing a with
  | nil => exact ⟨h, by rintro _ ⟨⟩⟩
  | cons s steps ih =>
    obtain ⟨hs, hsight⟩ := h.perform s
    obtain ⟨hrest, hsights⟩ := ih hs
    refine ⟨hrest, fun sight hm o ho => ?_⟩
    rcases List.mem_cons.1 hm with rfl | hm
    · refine (hsight o ho).imp_right fun hp => ?_
      have hlater := performAll_of_published hs hp steps
      show ((a.perform s).2.performAll steps).2.Published o
      rw [hlater]
      exact hp
    · exact hsights sight hm o ho

/-- The registry is reported as complete once if it is published, and otherwise never. -/
theorem Coherent.countP_isReady (h : a.Coherent) :
    a.log.countP Event.isReady = if a.registry.isSome then 1 else 0 := by
  rcases hr : a.registry with _ | ⟨n, r⟩
  · exact List.countP_eq_zero.2 fun e he => by simp [h.unready hr e he]
  · obtain ⟨asked, earlier, recent, keys, _, _, hperm, hlog, hearlier⟩ := h.complete n r hr
    have hrecent : recent.countP Event.isReady = 0 := by
      refine List.countP_eq_zero.2 fun e he => ?_
      have hready := Load.isReady_of_mem_events
        (fun l hl => Load.isOrderly_of_mem_askAll h.orderly hl) (hperm.mem_iff.1 he)
      simp [hready]
    have hfirst : earlier.countP Event.isReady = 0 :=
      List.countP_eq_zero.2 fun e he => by simp [hearlier e he]
    rw [hlog, List.countP_append, List.countP_append, hfirst, hrecent]
    rfl

/-- What is published, and what the log says of it: not both a registry and a failure; one report
that the registry is complete if it is published, and otherwise none; and a registry that is merged
from loads that all succeeded, one for each listed package, with their reports right before its
own, which is the last. -/
structure IsConsistent (c : Config) (a : Assembler) : Prop where
  single : a.registry = none ∨ a.error = none
  reported : a.log.countP Event.isReady = if a.registry.isSome then 1 else 0
  merged : ∀ n r, a.registry = some (n, r) → ∃ loads earlier recent keys,
    (∀ l ∈ loads, l.Succeeds) ∧
    r = Registry.build c.explicit (Load.registries loads) c.precedence ∧
    recent.Perm (Load.events loads) ∧
    (Load.events loads).map Event.package? = c.packages.map some ∧
    a.log = earlier ++ recent ++ [Event.registryReady keys]

theorem Coherent.isConsistent (h : a.Coherent) (hc : a.config = c) : a.IsConsistent c := by
  refine ⟨h.single, h.countP_isReady, fun n r hr => ?_⟩
  obtain ⟨asked, earlier, recent, keys, hsucc, hmerge, hperm, hlog, _⟩ := h.complete n r hr
  have hord : ∀ l ∈ a.loadsAfter asked, l.delivery.IsOrderly := fun l hl =>
    Load.isOrderly_of_mem_askAll h.orderly hl
  have hpackages : (a.loadsAfter asked).map Load.package = a.config.packages :=
    Load.package_of_askAll a.loader asked a.config.packages
  rw [hc] at hmerge hpackages
  refine ⟨a.loadsAfter asked, earlier, recent, keys, hsucc, hmerge, hperm, ?_, hlog⟩
  rw [Load.events_of_succeeds hord hsucc, ← hpackages, List.map_map]
  rfl

/-! ### Later incidents -/

/-- **A move after publication** changes nothing but requests. -/
theorem Invariant.core_move_of_published (h : a.Invariant) (ho : a.Published o) (m : Move) :
    (a.move m).core = a.core := by
  obtain ⟨ht, hl⟩ := h.coherent.settled ho.done
  cases m with
  | request => rfl
  | withdraw i => rfl
  | turn => exact h.coherent.core_turn_of_done ho.done
  | cancel => exact congrArg core (cancel_of_published h.coherent ho)
  | leave =>
    refine core_leaveLoop hl ?_
    rintro ⟨n, s, hs⟩
    rw [ht] at hs
    cases hs

/-- Closing the loop changes nothing but requests either. -/
theorem Invariant.core_meet_of_published (h : a.Invariant) (ho : a.Published o) (i : Incident) :
    (a.meet i).core = a.core := by
  cases i with
  | move m => exact h.core_move_of_published ho m
  | close =>
    obtain ⟨ht, hl⟩ := h.coherent.settled ho.done
    show a.closeLoop.core = a.core
    rw [closeLoop_of_not_running (by simp [ht])]
    unfold core
    rw [hl]

theorem Invariant.meetAll_of_published (h : a.Invariant) (ho : a.Published o)
    (later : List Incident) :
    (a.meetAll later).Invariant ∧ (a.meetAll later).core = a.core := by
  induction later generalizing a with
  | nil => exact ⟨h, rfl⟩
  | cons i later ih =>
    have hcore := h.core_meet_of_published ho i
    have hnext : (a.meet i).Invariant := h.meet fun _ => Or.inl (h.coherent.settled ho.done).2
    obtain ⟨hlater, hsame⟩ := ih hnext (published_of_core_eq hcore ho)
    exact ⟨hlater, hsame.trans hcore⟩

/-- All requests have ended after a turn once something is published. -/
theorem Invariant.mem_requests_turn (h : a.Invariant) (ho : a.Published o) {r : Request}
    (hr : r ∈ a.turn.requests) : r = .ended o ∨ r = .ended .cancelled := by
  rw [turn_of_published h.coherent ho] at hr
  obtain ⟨q, hq, rfl⟩ := List.mem_map.1 hr
  have ha := h.accounts q hq
  cases q with
  | scheduled => exact Or.inl rfl
  | waiting n =>
    obtain ⟨ht, hl⟩ := h.coherent.settled ho.done
    rcases ha with ⟨s, hs⟩ | ⟨t, hlt⟩
    · rw [ht] at hs
      cases hs
    · rw [hl] at hlt
      cases hlt
  | ended o' =>
    rcases ha with rfl | ho'
    · exact Or.inr rfl
    · rw [h.coherent.published_unique ho' ho]
      exact Or.inl rfl

/-! ### The main result -/

theorem atRest_initial {loader : Loader} (orderly : loader.IsOrderly) :
    (initial c loader).AtRest c :=
  ⟨invariant_initial orderly, rfl, rfl, rfl, by rintro ⟨n, s, ⟨⟩⟩⟩

/-- A build that is left behind by a closed loop, and the next one to its end. -/
def closedAndResumed : List Incident :=
  [.move .request, .move .turn, .move .turn, .close, .move .request] ++
    List.replicate 7 (.move .turn)

/-- A loader that fails for the package `first`, after a delay, when it is asked for the first time.
It takes five ticks more for other packages. -/
def fickleLoader (delay : ℕ) : Loader := fun package n =>
  if package = "first" then
    { ticks := delay
      result := if n = 0 then .error (.plain .runtime "")
        else .ok (.map [(.str package, .scalar .null)]) }
  else
    { ticks := delay + 5
      result := .ok (.map [(.str package, .scalar .null)]) }

/-- A request right after a build was cancelled whose first package has just failed. -/
def rashRequest : List Incident :=
  [.move .request, .move .turn, .move .turn, .move .cancel, .move .request] ++
    List.replicate 8 (.move .turn)

end Assembler

end CodeHighlight
