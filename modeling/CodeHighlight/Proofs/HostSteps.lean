import CodeHighlight.Assembly.Schedule
import CodeHighlight.Proofs.BuildProgress

/-!
# The steps of a host

Between two steps of a host an assembler is at rest: it keeps the invariant, nothing is on its way,
and no build is under way (`AtRest`). Every step leads from rest to rest, and a request of a step
that was not cancelled has what is published when the step is over (`AtRest.perform`).

Within a step the build may be cancelled while it is failing. Then no request is left that has not
begun, so that no second build starts before the failure is published (`Poised`).
-/

namespace CodeHighlight.Assembler
variable {c : Config} {a : Assembler}

/-! ### What an assembler was made with -/

theorem origin_beginRequests : a.beginRequests.origin = a.origin := by
  by_cases hs : a.hasScheduled = true
  · rw [beginRequests_eq hs]
    unfold ready
    split_ifs <;> rfl
  · rw [beginRequests_of_not_hasScheduled (by simpa using hs)]

theorem origin_publishLate : a.publishLate.origin = a.origin := by
  unfold publishLate
  rcases a.late with _ | ⟨n, t⟩
  · rfl
  · dsimp only
    split_ifs <;> rfl

theorem origin_turn : a.turn.origin = a.origin := by
  by_cases ht : a.IsBuilding
  · obtain ⟨n, s, ht⟩ := ht
    rw [turn_of_running ht, (advance_frame n s).1, origin_publishLate, origin_beginRequests]
  · rw [turn_of_not_running fun n s h => ht ⟨n, s, h⟩, origin_publishLate, origin_beginRequests]

theorem origin_cancel : a.cancel.origin = a.origin := by
  unfold cancel
  split
  · split <;> rfl
  · rfl

theorem origin_leaveLoop : a.leaveLoop.origin = a.origin := by
  by_cases ht : a.IsBuilding
  · obtain ⟨n, s, ht⟩ := ht
    cases hs : s.late? with
    | some t =>
      rw [leaveLoop_of_late? ht hs]
      exact (advance_frame n (.settled (.error t))).1
    | none =>
      rw [leaveLoop_of_running ht hs]
      rfl
  · rw [leaveLoop_of_not_running fun n s h => ht ⟨n, s, h⟩]
    exact origin_publishLate

theorem origin_move (m : Move) : (a.move m).origin = a.origin := by
  cases m with
  | turn => exact origin_turn
  | cancel => exact origin_cancel
  | leave => exact origin_leaveLoop
  | _ => rfl

/-- An assembler keeps its configuration and its loader, whatever happens to it. -/
theorem origin_play (ms : List Move) : (a.play ms).origin = a.origin := by
  induction ms generalizing a with
  | nil => rfl
  | cons m ms ih => rw [play_cons, ih, origin_move]

theorem origin_meetAll (incidents : List Incident) :
    (a.meetAll incidents).origin = a.origin := by
  induction incidents generalizing a with
  | nil => rfl
  | cons i incidents ih =>
    rw [meetAll_cons, ih]
    cases i with
    | move m => exact origin_move m
    | close => rfl

/-- A host that waits lets a number of turns pass. -/
theorem exists_turnsUntil (stop : Assembler → Bool) (n : ℕ) (a : Assembler) :
    ∃ m, turnsUntil stop n a = a.play (List.replicate m .turn) ∧
      (m = n ∨ stop (turnsUntil stop n a) = true) := by
  induction n generalizing a with
  | zero => exact ⟨0, rfl, Or.inl rfl⟩
  | succ n ih =>
    rw [turnsUntil]
    split_ifs with hstop
    · exact ⟨0, rfl, Or.inr hstop⟩
    · obtain ⟨m, hm, hend⟩ := ih a.turn
      exact ⟨m + 1, hm, hend.imp_left (congrArg (· + 1))⟩

/-! ### Within a step -/

/-- An assembler within a step: nothing is on its way unless all requests have begun. -/
structure Poised (c : Config) (a : Assembler) : Prop where
  invariant : a.Invariant
  config : a.config = c
  calm : a.late = none ∨ a.hasScheduled = false

/-- An assembler within a step whose build can be cancelled: all requests have begun unless no build
is under way. -/
structure Cancellable (c : Config) (a : Assembler) : Prop where
  poised : a.Poised c
  quiet : ¬a.IsBuilding ∨ a.hasScheduled = false

/-- An assembler between two steps. -/
structure AtRest (c : Config) (a : Assembler) : Prop where
  invariant : a.Invariant
  config : a.config = c
  late : a.late = none
  requests : a.requests = []
  idle : ¬a.IsBuilding

theorem Poised.turn (h : a.Poised c) : a.turn.Cancellable c :=
  ⟨⟨h.invariant.turn h.calm, (congrArg Prod.fst origin_turn).trans h.config, Or.inl late_turn⟩,
    Or.inr (h.invariant.hasScheduled_turn h.calm)⟩

theorem Poised.turnsUntil (stop : Assembler → Bool) (n : ℕ) (h : a.Poised c) :
    (turnsUntil stop n a).Poised c := by
  induction n generalizing a with
  | zero => exact h
  | succ n ih =>
    rw [Assembler.turnsUntil]
    split_ifs
    · exact h
    · exact ih h.turn.poised

theorem Cancellable.turnsUntil (stop : Assembler → Bool) (n : ℕ) (h : a.Cancellable c) :
    (turnsUntil stop n a).Cancellable c := by
  induction n generalizing a with
  | zero => exact h
  | succ n ih =>
    rw [Assembler.turnsUntil]
    split_ifs
    · exact h
    · exact ih h.poised.turn

theorem Poised.finish (h : a.Poised c) : a.finish.Cancellable c ∧ a.finish.late = none :=
  ⟨(h.turnsUntil isIdle a.turnsLeft).turn.poised.turn, late_turn⟩

theorem Cancellable.reach (h : a.Cancellable c) (phase : Phase) :
    (a.reach phase).Cancellable c := by
  cases phase with
  | before => exact h
  | loading => exact h.poised.turn.poised.turn.poised.turn.poised.turn
  | finished => exact h.poised.finish.1

theorem Cancellable.cancel (h : a.Cancellable c) : a.cancel.Poised c := by
  refine ⟨h.poised.invariant.cancel, (congrArg Prod.fst origin_cancel).trans h.poised.config, ?_⟩
  by_cases ht : a.IsBuilding
  · obtain ⟨n, s, ht⟩ := ht
    cases hs : s.late? with
    | some t =>
      rw [cancel_of_late? ht hs]
      exact Or.inr (h.quiet.resolve_left fun hb => hb ⟨n, s, ht⟩)
    | none =>
      have hl : a.late = none := late_eq_none_of_running h.poised.invariant.coherent ht
      rw [cancel_of_running ht hs]
      exact Or.inl hl
  · rw [cancel_of_not_running fun n s h => ht ⟨n, s, h⟩]
    exact h.poised.calm

theorem Poised.cancelRequest (h : a.Poised c) (i : ℕ) : (a.cancelRequest i).Poised c := by
  refine ⟨h.invariant.cancelRequest i, h.config, h.calm.imp_right fun hs => ?_⟩
  rw [hasScheduled_eq_false_iff] at hs ⊢
  intro hm
  rcases mem_cancelRequest hm with hc | hm
  · cases hc
  · exact hs hm

theorem Poised.request (h : a.Poised c) (hl : a.late = none) : a.request.Poised c :=
  ⟨h.invariant.request, h.config, Or.inl hl⟩

theorem AtRest.request (h : a.AtRest c) : a.request.Cancellable c :=
  ⟨⟨h.invariant.request, h.config, Or.inl h.late⟩, Or.inl h.idle⟩

theorem requestMany_eq (n : ℕ) :
    a.requestMany n = { a with requests := a.requests ++ List.replicate n .scheduled } := by
  induction n generalizing a with
  | zero =>
    rw [requestMany, List.replicate_zero, List.append_nil]
  | succ n ih =>
    rw [requestMany, ih, List.replicate_succ]
    simp [request]

theorem AtRest.requestMany (h : a.AtRest c) (n : ℕ) : (a.requestMany n).Cancellable c := by
  rw [requestMany_eq]
  refine ⟨⟨⟨h.invariant.coherent.withRequests _, ?_⟩, h.config, Or.inl h.late⟩, Or.inl h.idle⟩
  intro r hr
  rw [h.requests, List.nil_append] at hr
  rw [List.eq_of_mem_replicate hr]
  trivial

/-- No build is under way when a loop has been left. -/
theorem not_isBuilding_leaveLoop : ¬a.leaveLoop.IsBuilding := by
  rintro ⟨n, s, hs⟩
  by_cases ht : a.IsBuilding
  · obtain ⟨m, q, ht⟩ := ht
    cases hq : q.late? with
    | some t =>
      rw [leaveLoop_of_late? ht hq] at hs
      exact not_isBuilding_publish m (.error t) ⟨n, s, hs⟩
    | none =>
      rw [leaveLoop_of_running ht hq] at hs
      cases hs
  · rw [leaveLoop_of_not_running fun n s h => ht ⟨n, s, h⟩] at hs
    exact ht ⟨n, s, task_publishLate.symm.trans hs⟩

theorem Poised.leaveLoop (h : a.Poised c) : a.leaveLoop.AtRest c :=
  ⟨h.invariant.leaveLoop, (congrArg Prod.fst origin_leaveLoop).trans h.config, rfl, rfl,
    not_isBuilding_leaveLoop⟩

theorem Poised.closeLoop (h : a.Poised c) : a.closeLoop.AtRest c := by
  refine ⟨h.invariant.closeLoop, h.config, rfl, rfl, ?_⟩
  rintro ⟨n, s, hs⟩
  unfold Assembler.closeLoop at hs
  rcases ht : a.task with _ | ⟨m, q⟩ | _ | ⟨m, t⟩ <;> rw [ht] at hs <;> cases hs

/-! ### Whole steps -/

/-- The outcomes of requests that were not cancelled are what is published. -/
theorem Poised.mem_outcomes (h : a.Poised c) {o : Outcome} (ho : o ∈ a.outcomes) :
    o = .cancelled ∨ a.Published o := by
  obtain ⟨r, hr, rfl⟩ := List.mem_map.1 ho
  cases r with
  | ended o => exact h.invariant.accounts _ hr
  | _ => exact Or.inl rfl

/-- **The loop of a step is left** at its end. A request that was not cancelled has what is
published then. -/
theorem Poised.leave (h : a.Poised c) : a.turn.leaveLoop.AtRest c ∧
    ∀ o ∈ a.outcomes, o = .cancelled ∨ a.turn.leaveLoop.Published o := by
  refine ⟨h.turn.poised.leaveLoop, fun o hm => (h.mem_outcomes hm).imp_right fun ho => ?_⟩
  have hturn := h.invariant.coherent.core_turn_of_done ho.done
  exact h.turn.poised.invariant.coherent.published_leaveLoop (published_of_core_eq hturn ho)

theorem AtRest.cancel (h : a.AtRest c) : a.cancel.AtRest c := by
  have hinv := h.invariant.cancel
  rw [cancel_of_not_running fun n s ht => h.idle ⟨n, s, ht⟩] at hinv ⊢
  exact ⟨hinv, h.config, h.late, h.requests, by rintro ⟨n, s, ⟨⟩⟩⟩

/-- **A step leads from rest to rest.** A request of the step that was not cancelled has what is
published when the step is over. -/
theorem AtRest.perform (h : a.AtRest c) (s : HostStep) :
    (a.perform s).2.AtRest c ∧
      ∀ o ∈ (a.perform s).1.outcomes, o = .cancelled ∨ (a.perform s).2.Published o := by
  cases s with
  | status => exact ⟨h, by rintro _ ⟨⟩⟩
  | cancel => exact ⟨h.cancel, by rintro _ ⟨⟩⟩
  | get n =>
    exact (h.requestMany n).poised.finish.1.poised.leave
  | getThenCancel phase again =>
    have hf := (h.request.reach phase).cancel.finish
    cases again with
    | false => exact hf.1.poised.leave
    | true => exact (hf.1.poised.request hf.2).finish.1.poised.leave
  | cancelOne n which phase =>
    exact (((h.requestMany n).reach phase).poised.cancelRequest which).finish.1.poised.leave
  | abandon phase =>
    exact ⟨(h.request.reach phase).poised.turn.poised.leaveLoop, by rintro _ ⟨⟩⟩
  | close phase =>
    exact ⟨(h.request.reach phase).poised.turn.poised.closeLoop, by rintro _ ⟨⟩⟩

end CodeHighlight.Assembler
