import CodeHighlight.Proofs.BuildProgress

/-!
# One build for all requests

Main statement: `single_flight`. However the moves of a schedule follow each other, as long as
nobody cancels the build and no loop is left while a build is under way, the loader is asked for
each listed package once and in order, and all requests end with one and the same outcome, unless
they are cancelled themselves.

Without its requests the assembler passes through the same states under every schedule: it is as it
was at first, or as a build on its own is after some turns (`Trail`).
-/

namespace CodeHighlight
namespace Assembler
variable {a : Assembler}

/-! ### Undisturbed schedules -/

/-- Nobody cancels the build, and no loop is left while a build is under way. -/
def Undisturbed : Assembler → List Move → Prop
  | _, [] => True
  | a, m :: ms => m ≠ .cancel ∧ (m = .leave → ¬a.IsBuilding) ∧ Undisturbed (a.move m) ms

/-- The first build after so many turns, on its own. -/
def underway (config : Config) (loader : Loader) (k : ℕ) : Assembler :=
  turn^[k] (initial config loader).ready

variable {config : Config} {loader : Loader}

theorem alone_underway (orderly : loader.IsOrderly) (k : ℕ) :
    (underway config loader k).Alone config := by
  have hstart : (initial config loader).ready.Alone config := by
    refine ⟨⟨(invariant_initial orderly).coherent.ready rfl, ?_⟩, rfl, rfl, needsBuild_ready, rfl,
      Or.inl ⟨0, rfl, rfl⟩⟩
    rintro _ ⟨⟩
  exact hstart.iterate_turn k

theorem turn_underway (k : ℕ) :
    (underway config loader k).turn = underway config loader (k + 1) :=
  (Function.iterate_succ_apply' turn k _).symm

/-! ### The trail of a schedule -/

/-- The assembler without its requests is as it was at first, or as the first build is on its own
after some turns. -/
structure Trail (config : Config) (loader : Loader) (a : Assembler) : Prop where
  invariant : a.Invariant
  late : a.late = none
  core : a.core = initial config loader ∨ ∃ k, a.core = underway config loader k

theorem trail_initial (orderly : loader.IsOrderly) :
    (initial config loader).Trail config loader :=
  ⟨invariant_initial orderly, rfl, Or.inl rfl⟩

theorem needsBuild_of_core_underway (orderly : loader.IsOrderly) {k : ℕ}
    (h : a.core = underway config loader k) : a.needsBuild = false := by
  show a.core.needsBuild = false
  rw [h]
  exact (alone_underway orderly k).begun

/-- A build on its own is what a turn of an assembler with requests goes through. -/
theorem core_turn_of_underway (orderly : loader.IsOrderly) {k : ℕ} (hl : a.late = none)
    (h : a.core = underway config loader k) : a.turn.core = underway config loader (k + 1) := by
  have hk : (underway config loader k).Alone config := alone_underway orderly k
  rw [core_turn hl (Or.inl (needsBuild_of_core_underway orderly h)), h,
    core_eq_self (hk.invariant.coherent.requests_turn hk.requests), turn_underway]

theorem core_turn_of_initial (hl : a.late = none) (h : a.core = initial config loader) :
    a.turn.core = if a.hasScheduled then underway config loader 0 else initial config loader := by
  split_ifs with hs
  · have hn : a.needsBuild = true := by
      show a.core.needsBuild = true
      rw [h]
      rfl
    rw [core_turn_of_needsBuild hl hn hs, h]
    rfl
  · rw [core_turn hl (Or.inr (by simpa using hs)), h]
    rfl

theorem Trail.move (orderly : loader.IsOrderly) (h : a.Trail config loader) {m : Move}
    (hc : m ≠ .cancel) (hm : m = .leave → ¬a.IsBuilding) : (a.move m).Trail config loader := by
  cases m with
  | request => exact ⟨h.invariant.request, h.late, h.core⟩
  | withdraw i => exact ⟨h.invariant.cancelRequest i, h.late, h.core⟩
  | cancel => exact absurd rfl hc
  | leave =>
    refine ⟨h.invariant.leaveLoop, rfl, ?_⟩
    show a.leaveLoop.core = _ ∨ ∃ k, a.leaveLoop.core = _
    rw [core_leaveLoop h.late (hm rfl)]
    exact h.core
  | turn =>
    refine ⟨h.invariant.turn (Or.inl h.late), late_turn, ?_⟩
    show a.turn.core = _ ∨ ∃ k, a.turn.core = _
    rcases h.core with hcore | ⟨k, hcore⟩
    · rw [core_turn_of_initial h.late hcore]
      split_ifs
      · exact Or.inr ⟨0, rfl⟩
      · exact Or.inl rfl
    · exact Or.inr ⟨k + 1, core_turn_of_underway orderly h.late hcore⟩

theorem Trail.play (orderly : loader.IsOrderly) {ms : List Move} (h : a.Trail config loader)
    (hms : a.Undisturbed ms) : (a.play ms).Trail config loader := by
  induction ms generalizing a with
  | nil => exact h
  | cons m ms ih =>
    obtain ⟨hc, hm, hms⟩ := hms
    exact ih (h.move orderly hc hm) hms

/-- A build that has begun goes on by one turn with each turn of a schedule. -/
theorem Trail.core_play (orderly : loader.IsOrderly) {ms : List Move} {k : ℕ}
    (h : a.Trail config loader) (hcore : a.core = underway config loader k)
    (hms : a.Undisturbed ms) :
    (a.play ms).core = underway config loader (k + ms.count .turn) := by
  induction ms generalizing a k with
  | nil => exact hcore
  | cons m ms ih =>
    obtain ⟨hc, hm, hms⟩ := hms
    have hnext := h.move orderly hc hm
    cases m with
    | request => simpa [play_cons] using ih hnext hcore hms
    | withdraw i => simpa [play_cons] using ih hnext hcore hms
    | cancel => exact absurd rfl hc
    | leave =>
      simpa [play_cons] using ih hnext ((core_leaveLoop h.late (hm rfl)).trans hcore) hms
    | turn =>
      have hgoal := ih hnext (core_turn_of_underway orderly h.late hcore) hms
      rw [List.count_cons_self, Nat.add_comm _ 1, ← Nat.add_assoc]
      exact hgoal

/-! ### Single requests -/

theorem getElem?_of_advances {rs rs' : List Request} (h : List.Forall₂ Request.Advances rs rs')
    {i : ℕ} {r : Request} (hr : rs[i]? = some r) :
    ∃ r', rs'[i]? = some r' ∧ Request.Advances r r' := by
  induction h generalizing i with
  | nil => simp at hr
  | cons hq _ ih =>
    cases i with
    | zero =>
      simp only [List.getElem?_cons_zero, Option.some.injEq] at hr
      subst hr
      exact ⟨_, rfl, hq⟩
    | succ i => exact ih (by simpa using hr)

theorem getElem?_request {i : ℕ} {r : Request} (h : a.requests[i]? = some r) :
    a.request.requests[i]? = some r := by
  show (a.requests ++ [.scheduled])[i]? = some r
  rw [List.getElem?_append_left (List.getElem?_eq_some_iff.1 h).1, h]

theorem getElem?_cancelRequest_of_ne {i j : ℕ} {r : Request} (hj : j ≠ i)
    (h : a.requests[i]? = some r) : (a.cancelRequest j).requests[i]? = some r := by
  rw [getElem?_cancelRequest, h]
  simp [hj]

/-- A request that is not cancelled itself is not cancelled by other moves, and it begins with the
next turn. -/
theorem Trail.getElem?_play (orderly : loader.IsOrderly) {ms : List Move} {i : ℕ} {r : Request}
    (h : a.Trail config loader) (hms : a.Undisturbed ms)
    (his : ∀ m ∈ ms, m ≠ .leave ∧ m ≠ .withdraw i) (hr : a.requests[i]? = some r)
    (hserved : r ≠ .ended .cancelled) :
    ∃ r', (a.play ms).requests[i]? = some r' ∧ r' ≠ .ended .cancelled ∧
      (r' = .scheduled → r = .scheduled ∧ ms.count .turn = 0) := by
  -- only a turn touches the request, and a request that has begun never becomes scheduled again
  induction ms generalizing a r with
  | nil => exact ⟨r, hr, hserved, fun hs => ⟨hs, rfl⟩⟩
  | cons m ms ih =>
    obtain ⟨hc, hm, hms⟩ := hms
    obtain ⟨⟨hleave, hwithdraw⟩, hi⟩ := List.forall_mem_cons.1 his
    have hnext := h.move orderly hc hm
    cases m with
    | request =>
      simpa [play_cons] using ih hnext hms hi (getElem?_request hr) hserved
    | withdraw j =>
      have hj : j ≠ i := fun hj => hwithdraw (by rw [hj])
      simpa [play_cons] using ih hnext hms hi (getElem?_cancelRequest_of_ne hj hr) hserved
    | cancel => exact absurd rfl hc
    | leave => exact absurd rfl hleave
    | turn =>
      obtain ⟨r', hr', hadv⟩ := getElem?_of_advances
        (h.invariant.coherent.advances_turn (Or.inl h.late)) hr
      have hserved' : r' ≠ .ended .cancelled := by
        rcases hadv with rfl | ⟨_, _, hn⟩
        · exact hserved
        · exact hn
      obtain ⟨q, hq, hqs, hqb⟩ := ih hnext hms hi hr' hserved'
      refine ⟨q, hq, hqs, fun hs => absurd (hqb hs).1 ?_⟩
      have hnone := h.invariant.hasScheduled_turn (Or.inl h.late)
      rw [hasScheduled_eq_false_iff] at hnone
      intro hrs
      subst hrs
      exact hnone (List.mem_of_getElem? hr')

/-- A request that has not begun starts the first build in the next turn at the latest. -/
theorem Trail.core_play_of_scheduled (orderly : loader.IsOrderly) {ms : List Move} {i : ℕ}
    (h : a.Trail config loader) (hms : a.Undisturbed ms)
    (his : ∀ m ∈ ms, m ≠ .leave ∧ m ≠ .withdraw i) (hr : a.requests[i]? = some .scheduled)
    (ht : 1 ≤ ms.count .turn) :
    ∃ k, (a.play ms).core = underway config loader k ∧ ms.count .turn ≤ k + 1 := by
  induction ms generalizing a with
  | nil => simp at ht
  | cons m ms ih =>
    rcases h.core with hcore | ⟨k, hcore⟩
    · obtain ⟨hc, hm, hms⟩ := hms
      obtain ⟨⟨hleave, hwithdraw⟩, hi⟩ := List.forall_mem_cons.1 his
      have hnext := h.move orderly hc hm
      cases m with
      | request =>
        simpa [play_cons] using ih hnext hms hi (getElem?_request hr) (by simpa using ht)
      | withdraw j =>
        have hj : j ≠ i := fun hj => hwithdraw (by rw [hj])
        simpa [play_cons] using ih hnext hms hi (getElem?_cancelRequest_of_ne hj hr)
          (by simpa using ht)
      | cancel => exact absurd rfl hc
      | leave => exact absurd rfl hleave
      | turn =>
        have hs : a.hasScheduled = true := hasScheduled_iff.2 (List.mem_of_getElem? hr)
        have hturn : (a.move .turn).core = underway config loader 0 := by
          show a.turn.core = _
          rw [core_turn_of_initial h.late hcore, if_pos hs]
        exact ⟨_, hnext.core_play orderly hturn hms, by simp⟩
    · exact ⟨_, h.core_play orderly hcore hms, by omega⟩

/-! ### The end of the first build -/

/-- The first build publishes something after some turns, and then stays as it is. -/
theorem exists_underway_fixed (config : Config) (orderly : loader.IsOrderly) :
    ∃ n, (underway config loader n).done = true ∧
      ∀ k, n ≤ k → underway config loader k = underway config loader n := by
  have hstart : (underway config loader 0).Alone config := alone_underway orderly 0
  refine ⟨(underway config loader 0).remaining,
    done_iterate_turn _ hstart.invariant hstart.late hstart.begun le_rfl, fun k hk => ?_⟩
  obtain ⟨j, rfl⟩ := Nat.exists_eq_add_of_le hk
  have hn : (underway config loader (underway config loader 0).remaining).Alone config :=
    alone_underway orderly _
  rw [underway, Nat.add_comm, Function.iterate_add_apply]
  exact hn.invariant.coherent.iterate_turn_of_done
    (done_iterate_turn _ hstart.invariant hstart.late hstart.begun le_rfl) hn.requests j

/-- The outcome that the first build publishes is the only one that any schedule publishes. -/
theorem Trail.published_eq (orderly : loader.IsOrderly) {n : ℕ} {o o' : Outcome}
    (hfix : ∀ k, n ≤ k → underway config loader k = underway config loader n)
    (ho : (underway config loader n).Published o) (h : a.Trail config loader)
    (ho' : a.Published o') : o' = o := by
  have hcore' : a.core.Published o' := ho'
  rcases h.core with hcore | ⟨k, hcore⟩
  · rw [hcore] at hcore'
    cases hcore'.done
  · have hk : (underway config loader k).Alone config := alone_underway orderly k
    have hlater : underway config loader k = underway config loader n := by
      rw [hcore] at hcore'
      rw [← hfix (n + k) (Nat.le_add_right n k), underway, underway, Function.iterate_add_apply]
      exact (hk.invariant.coherent.iterate_turn_of_done hcore'.done hk.requests n).symm
    have hn : (underway config loader n).Alone config := alone_underway orderly n
    rw [hcore, hlater] at hcore'
    exact hn.invariant.coherent.published_unique hcore' ho

theorem asked_of_core {b : Assembler} (h : a.core = b) : a.asked = b.asked := by
  rw [← h]
  rfl

theorem task_of_core {b : Assembler} (h : a.core = b) : a.task = b.task := by
  rw [← h]
  rfl

theorem Trail.asked_eq (orderly : loader.IsOrderly) (h : a.Trail config loader) :
    a.asked = [] ∨ a.asked = config.packages := by
  rcases h.core with hcore | ⟨k, hcore⟩
  · exact Or.inl (asked_of_core hcore)
  · rw [asked_of_core hcore]
    exact (alone_underway orderly k).asked_eq

/-- When the first build is over, all packages have been asked for, its outcome is published, and
the requests that have begun have ended. -/
theorem Trail.over (orderly : loader.IsOrderly) {n k : ℕ} {o : Outcome}
    (hfix : ∀ k, n ≤ k → underway config loader k = underway config loader n)
    (ho : (underway config loader n).Published o) (h : a.Trail config loader)
    (hcore : a.core = underway config loader k) (hk : n ≤ k) :
    a.asked = config.packages ∧ a.Published o ∧
      ∀ r ∈ a.requests, r ≠ .scheduled → r ≠ .ended .cancelled → r = .ended o := by
  have hcore' : a.core = underway config loader n := hcore.trans (hfix k hk)
  have hpub : a.Published o := by
    show a.core.Published o
    rw [hcore']
    exact ho
  refine ⟨?_, hpub, fun r hr hs hc => ?_⟩
  · rw [asked_of_core hcore']
    exact (alone_underway orderly n).asked_eq_of_done ho.done
  · have hacc := h.invariant.accounts r hr
    cases r with
    | scheduled => exact absurd rfl hs
    | waiting m =>
      rcases hacc with ⟨s, ht⟩ | ⟨t, hl⟩
      · exact absurd hpub.done (not_done_of_running h.invariant.coherent ht)
      · rw [h.late] at hl
        cases hl
    | ended o' =>
      rcases hacc with rfl | ho'
      · exact absurd rfl hc
      · rw [h.published_eq orderly hfix ho ho']

/-- A request that is open has begun the first build, or begins it with the next turn. -/
theorem Trail.core_play_of_open (orderly : loader.IsOrderly) {ms : List Move} {i : ℕ} {r : Request}
    (h : a.Trail config loader) (hms : a.Undisturbed ms)
    (his : ∀ m ∈ ms, m ≠ .leave ∧ m ≠ .withdraw i) (hr : a.requests[i]? = some r)
    (hopen : r.isOpen = true) (ht : 1 ≤ ms.count .turn) :
    ∃ k, (a.play ms).core = underway config loader k ∧ ms.count .turn ≤ k + 1 := by
  cases r with
  | scheduled => exact h.core_play_of_scheduled orderly hms his hr ht
  | waiting m =>
    rcases h.core with hcore | ⟨k, hcore⟩
    · rcases h.invariant.accounts _ (List.mem_of_getElem? hr) with ⟨s, hs⟩ | ⟨t, hl⟩
      · rw [task_of_core hcore] at hs
        cases hs
      · rw [h.late] at hl
        cases hl
    · exact ⟨_, h.core_play orderly hcore hms, by omega⟩
  | ended o => cases hopen

end Assembler

/-- The outcome is a registry, or a failure of initialization. -/
def Outcome.IsShared (o : Outcome) : Prop :=
  (∃ n r, o = .registry n r) ∨ ∃ n t, o = .failure n t ∧ t.kind = .initialization

namespace Assembler
variable {a : Assembler}

/-- **One build for all requests.** For a loader whose deliveries are orderly there is one outcome,
and a number of turns, such that under every schedule in which nobody cancels the build and no loop
is left while a build is under way:

* the loader is never asked for anything but all listed packages, once and in order;
* a request that has ended has that outcome, unless it was cancelled;
* a request that is not cancelled itself stays open or ends with that outcome, whatever else
  happens in its loop, and it has ended after that many turns;
* once a request has begun, all packages have been asked for and the outcome is published after
  that many turns.

The outcome and the number of turns depend on neither the requests nor their cancellations. -/
theorem single_flight (config : Config) (loader : Loader) (orderly : loader.IsOrderly) :
    ∃ (o : Outcome) (patience : ℕ), o.IsShared ∧
      ∀ before, (initial config loader).Undisturbed before →
        let a := (initial config loader).play before
        (a.asked = [] ∨ a.asked = config.packages) ∧
        (∀ r ∈ a.requests, ∀ o', r.outcome? = some o' → o' = o ∨ o' = .cancelled) ∧
        (∀ i r after, a.requests[i]? = some r → r.isOpen = true → a.Undisturbed after →
          (∀ m ∈ after, m ≠ .leave ∧ m ≠ .withdraw i) →
          ∃ r', (a.play after).requests[i]? = some r' ∧ (r'.isOpen = true ∨ r' = .ended o) ∧
            (patience ≤ after.count .turn → r' = .ended o)) ∧
        ∀ after, a.hasScheduled = true → a.Undisturbed (.turn :: after) →
          patience ≤ after.count .turn →
          (a.play (.turn :: after)).asked = config.packages ∧
            (a.play (.turn :: after)).Published o := by
  obtain ⟨n, hdone, hfix⟩ := exists_underway_fixed config orderly
  obtain ⟨o, ho⟩ := exists_published hdone
  have hn : (underway config loader n).Alone config := alone_underway orderly n
  refine ⟨o, n + 1, ?_, fun before hbefore => ?_⟩
  · rcases ho with ⟨m, r, _, rfl⟩ | ⟨m, t, ht, rfl⟩
    · exact Or.inl ⟨m, r, rfl⟩
    · exact Or.inr ⟨m, t, rfl, hn.invariant.coherent.failed m t ht⟩
  have h := (trail_initial orderly).play orderly hbefore
  refine ⟨h.asked_eq orderly, ?_, ?_, ?_⟩
  · intro r hr o' ho'
    cases r with
    | ended q =>
      cases ho'
      rcases h.invariant.accounts _ hr with hc | hp
      · exact Or.inr hc
      · exact Or.inl (h.published_eq orderly hfix ho hp)
    | _ => cases ho'
  · intro i r after hr hopen hafter his
    -- the build is over after `n` of the turns, since it has begun in the first one at the latest
    have hlater := h.play orderly hafter
    have hserved : r ≠ .ended .cancelled := by
      rintro rfl
      cases hopen
    obtain ⟨r', hr', hserved', hbegun⟩ := h.getElem?_play orderly hafter his hr hserved
    have hmem := List.mem_of_getElem? hr'
    refine ⟨r', hr', ?_, fun hturns => ?_⟩
    · cases r' with
      | ended q =>
        rcases hlater.invariant.accounts _ hmem with rfl | hp
        · exact absurd rfl hserved'
        · exact Or.inr (by rw [hlater.published_eq orderly hfix ho hp])
      | _ => exact Or.inl rfl
    · obtain ⟨k, hcore, hk⟩ := h.core_play_of_open orderly hafter his hr hopen (by omega)
      refine (hlater.over orderly hfix ho hcore (by omega)).2.2 r' hmem (fun hs => ?_) hserved'
      have := (hbegun hs).2
      omega
  · intro after hs hafter hturns
    obtain ⟨_, _, hafter'⟩ := hafter
    have hturn := h.move orderly (m := .turn) (by simp) (by simp)
    have hcore : ∃ k, ((initial config loader).play before).turn.core =
        underway config loader k := by
      rcases h.core with hcore | ⟨k, hcore⟩
      · exact ⟨0, (core_turn_of_initial h.late hcore).trans (if_pos hs)⟩
      · exact ⟨k + 1, core_turn_of_underway orderly h.late hcore⟩
    obtain ⟨k, hcore⟩ := hcore
    have hover := (hturn.play orderly hafter').over orderly hfix ho
      (hturn.core_play orderly hcore hafter') (by omega)
    exact ⟨hover.1, hover.2.1⟩

theorem undisturbed_replicate_turn (n : ℕ) : a.Undisturbed (List.replicate n .turn) := by
  induction n generalizing a with
  | zero => trivial
  | succ n ih => exact ⟨by simp, by simp, ih⟩

/-- One of two requests is cancelled while two packages are loading; the other one ends with what
the build publishes. -/
theorem single_flight_slowLoader :
    Loader.IsOrderly slowLoader ∧ ∃ (o : Outcome) (n : ℕ), o.IsShared ∧
      ((initial { packages := ["slow", "quick"] } slowLoader).play
        ([.request, .request, .turn, .withdraw 1] ++ List.replicate n .turn)).requests[0]? =
          some (.ended o) := by
  obtain ⟨o, n, ho, h⟩ :=
    single_flight { packages := ["slow", "quick"] } slowLoader isOrderly_slowLoader
  refine ⟨isOrderly_slowLoader, o, n, ho, ?_⟩
  have hbefore : (initial { packages := ["slow", "quick"] } slowLoader).Undisturbed
      [.request, .request, .turn, .withdraw 1] := by
    simp [Undisturbed]
  obtain ⟨_, _, hserved, _⟩ := h _ hbefore
  obtain ⟨r, hr, _, hended⟩ := hserved 0 (.waiting 0) (List.replicate n .turn) rfl rfl
    (undisturbed_replicate_turn n) (fun m hm => by simp [List.eq_of_mem_replicate hm])
  rw [play_append, hr, hended (by simp)]

end Assembler

end CodeHighlight
