import CodeHighlight.Proofs.AssemblerSteps

/-!
# The progress of a build

What an assembler is without its requests (`Assembler.core`) does not depend on them once a build is
under way: a turn does to it what it does to an assembler without requests (`core_turn`).

Every turn brings a build closer to its end (`remaining_turn`), so that something is published after
as many turns as remain (`done_iterate_turn`). From then on turns change nothing
(`turn_of_done`). A build asks for all packages at once, and never again (`AsksOnce`).
-/

namespace CodeHighlight.Assembler
variable {a : Assembler}

/-! ### Without requests -/

/-- The assembler without its requests. -/
def core (a : Assembler) : Assembler := { a with requests := [] }

/-- What is published is no matter of requests. -/
theorem published_of_core_eq {b : Assembler} {o : Outcome} (h : b.core = a.core)
    (ho : a.Published o) : b.Published o := by
  show b.core.Published o
  rw [h]
  exact ho

/-- A build is under way. -/
def IsBuilding (a : Assembler) : Prop := ∃ n s, a.task = .running n s

theorem core_publish (n : ℕ) (result : Except Trace (List Registry)) :
    (a.publish n result).core = (a.core.publish n result).core := by
  unfold publish
  cases result with
  | error t =>
    dsimp only
    split_ifs <;> rfl
  | ok loaded =>
    dsimp only [core]
    split <;> rfl

/-- The assembler once it has asked for all packages. -/
def asking (a : Assembler) : Assembler := { a with asked := a.asked ++ a.config.packages }

theorem advance_scheduled_of_isEmpty (h : a.config.packages.isEmpty = true) (n : ℕ) :
    a.advance n .scheduled = a.publish n (.ok []) := if_pos h

theorem advance_scheduled (h : ¬a.config.packages.isEmpty = true) (n : ℕ) :
    a.advance n .scheduled = a.asking.finishLoads n 0 (a.loadsAfter a.asked) := if_neg h

theorem core_advance (n : ℕ) (s : Stage) : (a.advance n s).core = (a.core.advance n s).core := by
  cases s with
  | scheduled =>
    by_cases hp : a.config.packages.isEmpty = true
    · have hp' : a.core.config.packages.isEmpty = true := hp
      rw [advance_scheduled_of_isEmpty hp, advance_scheduled_of_isEmpty hp']
      exact core_publish n _
    · have hp' : ¬a.core.config.packages.isEmpty = true := hp
      rw [advance_scheduled hp, advance_scheduled hp']
      rfl
  | loading elapsed loads => rfl
  | failing t => rfl
  | settled result => exact core_publish n result

theorem requests_eq_nil_of_advances {rs rs' : List Request}
    (h : List.Forall₂ Request.Advances rs rs') (hrs : rs = []) : rs' = [] := by
  subst hrs
  exact List.forall₂_nil_left_iff.1 h

theorem core_eq_self (h : a.requests = []) : a.core = a := by
  cases a
  cases h
  rfl

theorem beginRequests_of_not_hasScheduled (h : a.hasScheduled = false) : a.beginRequests = a := by
  simp [beginRequests, h]

theorem map_beginAs_of_not_hasScheduled (h : a.hasScheduled = false) (b : Request) :
    a.requests.map (beginAs b) = a.requests := by
  rw [hasScheduled_eq_false_iff] at h
  refine (List.map_congr_left fun r hr => ?_).trans (List.map_id _)
  cases r with
  | scheduled => exact absurd hr h
  | _ => rfl

/-- When no build is needed, requests only begin. -/
theorem beginRequests_of_not_needsBuild (h : a.needsBuild = false) :
    a.beginRequests = { a with requests := a.requests.map (beginAs a.begun) } := by
  by_cases hs : a.hasScheduled = true
  · rw [beginRequests_eq hs, ready_of_not_needsBuild h]
  · rw [beginRequests_of_not_hasScheduled (by simpa using hs),
      map_beginAs_of_not_hasScheduled (by simpa using hs)]

theorem core_beginRequests (h : a.needsBuild = false ∨ a.hasScheduled = false) :
    a.beginRequests.core = a.core := by
  by_cases hs : a.hasScheduled = true
  · rw [beginRequests_eq hs, ready_of_not_needsBuild (h.resolve_right (by simp [hs]))]
    rfl
  · rw [beginRequests_of_not_hasScheduled (by simpa using hs)]

theorem hasScheduled_core : a.core.hasScheduled = false := rfl

/-- Unless a build begins, a turn does to the core what it does to an assembler without requests. -/
theorem core_turn (hl : a.late = none) (h : a.needsBuild = false ∨ a.hasScheduled = false) :
    a.turn.core = a.core.turn.core := by
  have hlate' : a.core.beginRequests.publishLate = a.core := by
    rw [beginRequests_of_not_hasScheduled hasScheduled_core]
    exact publishLate_of_late_eq_none hl
  by_cases ht : a.IsBuilding
  · obtain ⟨n, s, ht⟩ := ht
    rw [turn_of_running ht, turn_of_running (a := a.core) ht, publishLate_beginRequests hl, hlate',
      core_advance, core_beginRequests h]
  · rw [turn_of_not_running fun n s h => ht ⟨n, s, h⟩,
      turn_of_not_running (a := a.core) fun n s h => ht ⟨n, s, h⟩,
      publishLate_beginRequests hl, hlate', core_beginRequests h]
    rfl

/-- The first request that begins starts a build. -/
theorem core_turn_of_needsBuild (hl : a.late = none) (hn : a.needsBuild = true)
    (hs : a.hasScheduled = true) : a.turn.core = a.core.ready := by
  have ht : ∀ n s, a.task ≠ .running n s := by
    intro n s ht
    rcases (needsBuild_iff.1 hn).2 with h | h <;> rw [h] at ht <;> cases ht
  have hn' : a.core.needsBuild = true := hn
  rw [turn_of_not_running ht, publishLate_beginRequests hl, beginRequests_eq hs]
  unfold ready
  rw [if_pos hn, if_pos hn']
  rfl

/-- What is published stays, and nothing else happens: turns change nothing but requests. -/
theorem Coherent.core_turn_of_done (h : a.Coherent) (hd : a.done = true) :
    a.turn.core = a.core := by
  obtain ⟨ht, hl⟩ := h.settled hd
  have hn : a.needsBuild = false := by simp [needsBuild, hd]
  rw [turn_of_not_running (by simp [ht]), publishLate_beginRequests hl,
    core_beginRequests (Or.inl hn)]

/-- Leaving a loop in which no build is under way only ends its requests. -/
theorem leaveLoop_of_not_isBuilding (hl : a.late = none) (ht : ¬a.IsBuilding) :
    a.leaveLoop = a.core := by
  rw [leaveLoop_of_not_running fun n s h => ht ⟨n, s, h⟩, publishLate_of_late_eq_none hl]
  unfold core
  rw [hl]

theorem core_leaveLoop (hl : a.late = none) (ht : ¬a.IsBuilding) : a.leaveLoop.core = a.core := by
  rw [leaveLoop_of_not_isBuilding hl ht]
  rfl

/-- What is published stays when the loop is left. -/
theorem Coherent.published_leaveLoop (h : a.Coherent) {o : Outcome} (ho : a.Published o) :
    a.leaveLoop.Published o := by
  obtain ⟨ht, hl⟩ := h.settled ho.done
  refine published_of_core_eq (core_leaveLoop hl ?_) ho
  rintro ⟨n, s, hs⟩
  rw [ht] at hs
  cases hs

/-! ### The end of a build -/

/-- A bound on the turns until a build under way is over. -/
def remaining (a : Assembler) : ℕ :=
  match a.task with
  | .running _ .scheduled => Load.longest (a.loadsAfter a.asked) + 3
  | .running _ (.loading elapsed loads) => Load.longest loads - elapsed + 2
  | .running _ (.failing _) => 2
  | .running _ (.settled _) => 1
  | _ => 0

theorem remaining_publish (n : ℕ) (result : Except Trace (List Registry)) :
    (a.publish n result).remaining = 0 := by
  unfold publish
  cases result with
  | error t =>
    dsimp only
    split_ifs <;> rfl
  | ok loaded =>
    dsimp only
    split <;> rfl

/-- A build whose result is published is over. -/
theorem not_isBuilding_publish (n : ℕ) (result : Except Trace (List Registry)) :
    ¬(a.publish n result).IsBuilding := by
  rintro ⟨m, s, hs⟩
  have hremaining := remaining_publish (a := a) n result
  rw [remaining, hs] at hremaining
  cases s <;> cases hremaining

/-- When loads have finished, the build is settled unless some of them take longer. -/
theorem remaining_finishLoads (n elapsed : ℕ) (loads : List Load) :
    (a.finishLoads n elapsed loads).remaining = 1 ∨
      elapsed < Load.longest loads ∧
        (a.finishLoads n elapsed loads).remaining ≤ Load.longest loads - elapsed + 2 := by
  by_cases hfin : (loads.all fun l => l.delivery.ticks ≤ elapsed) = true
  · refine Or.inl ?_
    unfold finishLoads remaining
    dsimp only
    rw [hfin]
    rcases Load.firstFailure? (loads.filter fun l => l.delivery.ticks == elapsed) with _ | t <;> rfl
  · have hlt : elapsed < Load.longest loads := by
      simp only [List.all_eq_true, decide_eq_true_eq, not_forall, not_le] at hfin
      obtain ⟨l, hl, hlt⟩ := hfin
      exact lt_of_lt_of_le hlt (Load.ticks_le_longest hl)
    refine Or.inr ⟨hlt, ?_⟩
    unfold finishLoads remaining
    dsimp only
    rw [Bool.not_eq_true] at hfin
    rw [hfin]
    rcases Load.firstFailure? (loads.filter fun l => l.delivery.ticks == elapsed) with _ | t
    · exact le_rfl
    · show 2 ≤ _
      omega

theorem remaining_advance {n : ℕ} {s : Stage} (ht : a.task = .running n s) :
    (a.advance n s).remaining < a.remaining := by
  cases s with
  | scheduled =>
    have hr : a.remaining = Load.longest (a.loadsAfter a.asked) + 3 := by rw [remaining, ht]
    by_cases hp : a.config.packages.isEmpty = true
    · rw [advance_scheduled_of_isEmpty hp, remaining_publish]
      omega
    · rw [advance_scheduled hp, hr]
      rcases remaining_finishLoads (a := a.asking) n 0 (a.loadsAfter a.asked) with h | ⟨_, h⟩ <;>
        omega
  | loading elapsed loads =>
    have hr : a.remaining = Load.longest loads - elapsed + 2 := by rw [remaining, ht]
    show (a.finishLoads n (elapsed + 1) loads).remaining < _
    rcases remaining_finishLoads (a := a) n (elapsed + 1) loads with h | ⟨hlt, h⟩ <;> omega
  | failing t =>
    have hr : a.remaining = 2 := by rw [remaining, ht]
    rw [hr]
    exact one_lt_two
  | settled result =>
    have hr : a.remaining = 1 := by rw [remaining, ht]
    rw [hr]
    exact lt_of_eq_of_lt (remaining_publish n result) one_pos

/-- Every turn brings a build closer to its end. -/
theorem remaining_turn (hl : a.late = none) (ht : a.IsBuilding) :
    a.turn.remaining < a.remaining := by
  obtain ⟨n, s, ht⟩ := ht
  have hn : a.needsBuild = false := by simp [needsBuild, ht]
  have hb : a.beginRequests.core.remaining = a.core.remaining := by
    rw [core_beginRequests (Or.inl hn)]
  rw [turn_of_running ht, publishLate_beginRequests hl]
  exact lt_of_lt_of_eq (remaining_advance (task_beginRequests ht)) hb

/-- A build that has begun is under way, or something is published. -/
theorem Coherent.isBuilding_or_done (h : a.Coherent) (hn : a.needsBuild = false) :
    a.IsBuilding ∨ a.done = true := by
  by_cases hd : a.done = true
  · exact Or.inr hd
  · rcases ht : a.task with _ | ⟨n, s⟩ | _ | ⟨n, t⟩
    · exact absurd (needsBuild_iff.2 ⟨hd, Or.inl ht⟩) (by simp [hn])
    · exact Or.inl ⟨n, s, ht⟩
    · exact absurd (needsBuild_iff.2 ⟨hd, Or.inr ht⟩) (by simp [hn])
    · exact absurd ht (h.unbroken n t)

theorem needsBuild_publish (n : ℕ) (result : Except Trace (List Registry)) :
    (a.publish n result).needsBuild = false := by
  unfold publish
  cases result with
  | error t =>
    dsimp only
    split_ifs <;> simp [needsBuild, answerAll, done]
  | ok loaded =>
    dsimp only
    split <;> simp [needsBuild, answerAll, done]

theorem needsBuild_finishLoads (n elapsed : ℕ) (loads : List Load) :
    (a.finishLoads n elapsed loads).needsBuild = false := by
  simp [needsBuild, finishLoads]

theorem needsBuild_advance (n : ℕ) (s : Stage) : (a.advance n s).needsBuild = false := by
  cases s with
  | scheduled =>
    by_cases hp : a.config.packages.isEmpty = true
    · rw [advance_scheduled_of_isEmpty hp]
      exact needsBuild_publish n _
    · rw [advance_scheduled hp]
      exact needsBuild_finishLoads n 0 _
  | loading elapsed loads => exact needsBuild_finishLoads n _ loads
  | failing t => simp [needsBuild, advance]
  | settled result => exact needsBuild_publish n result

theorem Coherent.needsBuild_turn (h : a.Coherent) (hn : a.needsBuild = false) :
    a.turn.needsBuild = false := by
  rcases h.isBuilding_or_done hn with ⟨n, s, ht⟩ | hd
  · rw [turn_of_running ht]
    exact needsBuild_advance n s
  · have hcore := h.core_turn_of_done hd
    show a.turn.core.needsBuild = false
    rw [hcore]
    exact hn

/-- Something is published after as many turns as remain. -/
theorem done_iterate_turn (k : ℕ) (h : a.Invariant) (hl : a.late = none)
    (hn : a.needsBuild = false) (hk : a.remaining ≤ k) : (turn^[k] a).done = true := by
  -- a build under way loses a turn of what remains, and nothing remains once it is over
  induction k generalizing a with
  | zero =>
    rcases h.coherent.isBuilding_or_done hn with ht | hd
    · have := remaining_turn hl ht
      omega
    · exact hd
  | succ k ih =>
    rw [Function.iterate_succ_apply]
    have hturn := h.turn (Or.inl hl)
    refine ih hturn late_turn (h.coherent.needsBuild_turn hn) ?_
    rcases h.coherent.isBuilding_or_done hn with ht | hd
    · have := remaining_turn hl ht
      omega
    · have hd' : a.turn.core.done = true := by
        rw [h.coherent.core_turn_of_done hd]
        exact hd
      have hzero : a.turn.remaining = 0 := by
        rw [remaining, (hturn.coherent.settled hd').1]
      omega

/-! ### Builds without requests -/

/-- A turn leaves an assembler without requests without any. -/
theorem Coherent.requests_turn (h : a.Coherent) (hr : a.requests = []) : a.turn.requests = [] := by
  have hs : a.hasScheduled = false := by
    rw [hasScheduled_eq_false_iff, hr]
    simp
  exact requests_eq_nil_of_advances (h.advances_turn (Or.inr hs)) hr

/-- Once something is published, turns change nothing in an assembler without requests. -/
theorem Coherent.turn_of_done (h : a.Coherent) (hd : a.done = true) (hr : a.requests = []) :
    a.turn = a := by
  rw [← core_eq_self (h.requests_turn hr), h.core_turn_of_done hd, core_eq_self hr]

theorem Coherent.iterate_turn_of_done (h : a.Coherent) (hd : a.done = true) (hr : a.requests = [])
    (k : ℕ) : turn^[k] a = a := by
  induction k with
  | zero => rfl
  | succ k ih => rw [Function.iterate_succ_apply', ih, h.turn_of_done hd hr]

/-! ### What a build asks for -/

/-- The only build so far has not asked yet, or it has asked for all packages in order, and will not
ask again. -/
def AsksOnce (a : Assembler) : Prop :=
  (∃ n, a.task = .running n .scheduled ∧ a.asked = []) ∨
    a.asked = a.config.packages ∧ ∀ n, a.task ≠ .running n .scheduled

theorem asksOnce_finishLoads (n elapsed : ℕ) (loads : List Load)
    (h : a.asked = a.config.packages) : (a.finishLoads n elapsed loads).AsksOnce := by
  refine Or.inr ⟨h, fun m => ?_⟩
  unfold finishLoads
  dsimp only
  rcases Load.firstFailure? (loads.filter fun l => l.delivery.ticks == elapsed) with _ | t
  · split_ifs <;> simp
  · split_ifs <;> simp

theorem asksOnce_publish (n : ℕ) (result : Except Trace (List Registry))
    (h : a.asked = a.config.packages) : (a.publish n result).AsksOnce := by
  unfold publish
  cases result with
  | error t =>
    dsimp only
    split_ifs <;> exact Or.inr ⟨h, by simp [answerAll]⟩
  | ok loaded =>
    dsimp only
    split <;> exact Or.inr ⟨h, by simp [answerAll]⟩

theorem AsksOnce.advance (h : a.AsksOnce) {n : ℕ} {s : Stage} (ht : a.task = .running n s) :
    (a.advance n s).AsksOnce := by
  rcases h with ⟨m, hm, ha⟩ | ⟨ha, hs⟩
  · rw [hm] at ht
    cases ht
    by_cases hp : a.config.packages.isEmpty = true
    · rw [advance_scheduled_of_isEmpty hp]
      exact asksOnce_publish n _ (by rw [ha, List.isEmpty_iff.1 hp])
    · rw [advance_scheduled hp]
      refine asksOnce_finishLoads n 0 _ ?_
      show a.asked ++ a.config.packages = a.config.packages
      rw [ha, List.nil_append]
  · cases s with
    | scheduled => exact absurd ht (hs n)
    | loading elapsed loads => exact asksOnce_finishLoads n _ loads ha
    | failing t => exact Or.inr ⟨ha, by rintro m ⟨⟩⟩
    | settled result => exact asksOnce_publish n result ha

/-! ### A build on its own -/

/-- An assembler whose first build has begun, without requests. -/
structure Alone (c : Config) (a : Assembler) : Prop where
  invariant : a.Invariant
  late : a.late = none
  requests : a.requests = []
  begun : a.needsBuild = false
  config : a.config = c
  asksOnce : a.AsksOnce

/-- Without requests a turn only lets a build go on. -/
theorem turn_of_requests_eq_nil (hr : a.requests = []) (hl : a.late = none) :
    (∃ n s, a.task = .running n s ∧ a.turn = a.advance n s) ∨ a.turn = a := by
  have hs : a.hasScheduled = false := by
    rw [hasScheduled_eq_false_iff, hr]
    simp
  have hb : a.beginRequests.publishLate = a := by
    rw [beginRequests_of_not_hasScheduled hs, publishLate_of_late_eq_none hl]
  by_cases ht : a.IsBuilding
  · obtain ⟨n, s, ht⟩ := ht
    exact Or.inl ⟨n, s, ht, by rw [turn_of_running ht, hb]⟩
  · exact Or.inr (by rw [turn_of_not_running fun n s h => ht ⟨n, s, h⟩, hb])

theorem Alone.turn {c : Config} (h : a.Alone c) : a.turn.Alone c := by
  refine ⟨h.invariant.turn (Or.inl h.late), late_turn,
    h.invariant.coherent.requests_turn h.requests, h.invariant.coherent.needsBuild_turn h.begun,
    ?_, ?_⟩
  · rcases turn_of_requests_eq_nil h.requests h.late with ⟨n, s, _, heq⟩ | heq
    · rw [heq]
      exact (congrArg Prod.fst (advance_frame n s).1).trans h.config
    · rw [heq, h.config]
  · rcases turn_of_requests_eq_nil h.requests h.late with ⟨n, s, ht, heq⟩ | heq
    · rw [heq]
      exact h.asksOnce.advance ht
    · rw [heq]
      exact h.asksOnce

theorem Alone.iterate_turn {c : Config} (h : a.Alone c) (k : ℕ) :
    (Assembler.turn^[k] a).Alone c := by
  induction k with
  | zero => exact h
  | succ k ih =>
    rw [Function.iterate_succ_apply']
    exact ih.turn

theorem Alone.asked_eq {c : Config} (h : a.Alone c) : a.asked = [] ∨ a.asked = c.packages := by
  rcases h.asksOnce with ⟨_, _, ha⟩ | ⟨ha, _⟩
  · exact Or.inl ha
  · exact Or.inr (by rw [ha, h.config])

/-- All packages have been asked for once when something is published. -/
theorem Alone.asked_eq_of_done {c : Config} (h : a.Alone c) (hd : a.done = true) :
    a.asked = c.packages := by
  rcases h.asksOnce with ⟨n, ht, _⟩ | ⟨ha, _⟩
  · rw [(h.invariant.coherent.settled hd).1] at ht
    cases ht
  · rw [ha, h.config]

end CodeHighlight.Assembler
