import CodeHighlight.Proofs.AssemblerInvariant

/-!
# What can happen to an assembler

Everything that a host does with an assembler keeps the invariant (`Invariant.request`,
`Invariant.turn`, `Invariant.cancelRequest`, `Invariant.cancel`, `Invariant.leaveLoop`,
`Invariant.closeLoop`). A turn needs one precaution: no request may begin while the failure of a
cancelled build is on its way, since it would start a second build beside it.

During a turn no request is cancelled, and those that have ended stay as they are
(`Coherent.advances_turn`).

A schedule is a list of moves: requests, turns of the loop, requests that are cancelled one by one,
cancellations of the build, and loops that are left. A loop may also be closed instead (`Incident`).
Whatever happens, the invariant holds at every moment if the precaution is taken
(`Invariant.meetAll`).
-/

namespace CodeHighlight.Assembler
variable {a : Assembler}

/-! ### Turns -/

section Turns

theorem task_beginRequests {n : ℕ} {s : Stage} (ht : a.task = .running n s) :
    a.beginRequests.task = .running n s := by
  by_cases hs : a.hasScheduled = true
  · rw [beginRequests_eq hs, ready_of_not_needsBuild (by simp [needsBuild, ht])]
    exact ht
  · simp [Assembler.beginRequests, hs, ht]

theorem late_beginRequests : a.beginRequests.late = a.late := by
  by_cases hs : a.hasScheduled = true
  · rw [beginRequests_eq hs]
    unfold ready
    split_ifs <;> rfl
  · simp [Assembler.beginRequests, hs]

/-- What an assembler was made with. -/
def origin (a : Assembler) : Config × Loader := (a.config, a.loader)

/-- A build that goes on touches neither what the assembler was made with nor what is on its way. -/
theorem advance_frame (n : ℕ) (s : Stage) :
    (a.advance n s).origin = a.origin ∧ (a.advance n s).late = a.late := by
  unfold Assembler.advance publish
  rcases s with _ | ⟨elapsed, loads⟩ | t | t | loaded
  · dsimp only
    split
    · split <;> exact ⟨rfl, rfl⟩
    · exact ⟨rfl, rfl⟩
  · exact ⟨rfl, rfl⟩
  · exact ⟨rfl, rfl⟩
  · dsimp only
    split <;> exact ⟨rfl, rfl⟩
  · dsimp only
    split <;> exact ⟨rfl, rfl⟩

theorem publishLate_beginRequests (hl : a.late = none) :
    a.beginRequests.publishLate = a.beginRequests :=
  publishLate_of_late_eq_none (late_beginRequests.trans hl)

theorem turn_of_running {n : ℕ} {s : Stage} (ht : a.task = .running n s) :
    a.turn = a.beginRequests.publishLate.advance n s := by
  unfold turn
  rw [ht]

theorem turn_of_not_running (ht : ∀ n s, a.task ≠ .running n s) :
    a.turn = a.beginRequests.publishLate := by
  unfold turn
  rcases h : a.task with _ | ⟨n, s⟩ | _ | ⟨n, t⟩
  · rfl
  · exact absurd h (ht n s)
  · rfl
  · rfl

/-- Nothing is on its way after a turn. -/
theorem late_turn : a.turn.late = none := by
  by_cases ht : ∃ n s, a.task = .running n s
  · obtain ⟨n, s, ht⟩ := ht
    rw [turn_of_running ht, (advance_frame n s).2]
    exact late_publishLate
  · rw [turn_of_not_running fun n s h => ht ⟨n, s, h⟩]
    exact late_publishLate

/-- **A turn keeps the invariant**, unless a request begins while a failure is on its way. -/
theorem Invariant.turn (h : a.Invariant) (hc : a.late = none ∨ a.hasScheduled = false) :
    a.turn.Invariant := by
  have hb := (h.beginRequests hc).1
  by_cases ht : ∃ n s, a.task = .running n s
  · obtain ⟨n, s, ht⟩ := ht
    have hl := late_eq_none_of_running h.coherent ht
    rw [turn_of_running ht, publishLate_beginRequests hl]
    exact hb.advance (task_beginRequests ht)
  · rw [turn_of_not_running fun n s h => ht ⟨n, s, h⟩]
    exact hb.publishLate

/-! ### Requests during a turn -/

/-- A request stays as it is, or one that is open begins or ends; it is not cancelled. -/
def Request.Advances (r r' : Request) : Prop :=
  r' = r ∨ r.isOpen = true ∧ r' ≠ .scheduled ∧ r' ≠ .ended .cancelled

theorem Request.Advances.trans {r r' r'' : Request} (h : Request.Advances r r')
    (h' : Request.Advances r' r'') : Request.Advances r r'' := by
  rcases h with rfl | ⟨ho, h1, h2⟩
  · exact h'
  · rcases h' with rfl | ⟨_, h1', h2'⟩
    · exact Or.inr ⟨ho, h1, h2⟩
    · exact Or.inr ⟨ho, h1', h2'⟩

theorem advances_answerAll (n : ℕ) {o : Outcome} (ho : o ≠ .cancelled) :
    List.Forall₂ Request.Advances a.requests (a.answerAll n o).requests := by
  refine List.forall₂_map_right_iff.2 (List.forall₂_same.2 fun r _ => ?_)
  cases r with
  | scheduled => exact Or.inl rfl
  | ended o' => exact Or.inl rfl
  | waiting m =>
    dsimp only
    split_ifs
    · exact Or.inr ⟨rfl, by simp, by simpa using ho⟩
    · exact Or.inl rfl

theorem advances_refl (rs : List Request) : List.Forall₂ Request.Advances rs rs :=
  List.forall₂_same.2 fun _ _ => Or.inl rfl

theorem advances_publish (n : ℕ) (result : Except Trace (List Registry)) :
    List.Forall₂ Request.Advances a.requests (a.publish n result).requests := by
  unfold publish
  cases result with
  | error t =>
    dsimp only
    split_ifs <;> exact advances_answerAll n (by simp)
  | ok loaded =>
    dsimp only
    split <;> exact advances_answerAll n (by simp)

theorem advances_advance (n : ℕ) (s : Stage) :
    List.Forall₂ Request.Advances a.requests (a.advance n s).requests := by
  cases s with
  | scheduled =>
    unfold Assembler.advance
    split_ifs
    · exact advances_publish n _
    · exact advances_refl _
  | loading elapsed loads => exact advances_refl _
  | failing t => exact advances_refl _
  | settled result => exact advances_publish n result

theorem advances_publishLate :
    List.Forall₂ Request.Advances a.requests a.publishLate.requests := by
  unfold Assembler.publishLate
  rcases a.late with _ | ⟨n, t⟩
  · exact advances_refl _
  · dsimp only
    split_ifs <;> exact advances_answerAll n (by simp)

theorem Coherent.advances_beginRequests (h : a.Coherent)
    (hc : a.late = none ∨ a.hasScheduled = false) :
    List.Forall₂ Request.Advances a.requests a.beginRequests.requests := by
  by_cases hs : a.hasScheduled = true
  · have hl : a.late = none := hc.resolve_right (by simp [hs])
    rw [beginRequests_eq hs]
    refine List.forall₂_map_right_iff.2 (List.forall₂_same.2 fun r _ => ?_)
    cases r with
    | scheduled =>
      rcases begun_spec (h.ready hl) needsBuild_ready with ⟨n, s, _, hb⟩ | ⟨o, ho, hb⟩
      · exact Or.inr ⟨rfl, by simp [beginAs, hb], by simp [beginAs, hb]⟩
      · refine Or.inr ⟨rfl, by simp [beginAs, hb], ?_⟩
        rcases ho with ⟨n, r, _, rfl⟩ | ⟨n, t, _, rfl⟩ <;> simp [beginAs, hb]
    | waiting n => exact Or.inl rfl
    | ended o => exact Or.inl rfl
  · have hid : a.beginRequests = a := by simp [Assembler.beginRequests, hs]
    rw [hid]
    exact advances_refl _

theorem advances_trans {rs rs' rs'' : List Request} (h : List.Forall₂ Request.Advances rs rs')
    (h' : List.Forall₂ Request.Advances rs' rs'') : List.Forall₂ Request.Advances rs rs'' := by
  induction h generalizing rs'' with
  | nil => exact h'
  | cons hr _ ih =>
    cases h' with
    | cons hr' h' => exact .cons (hr.trans hr') (ih h')

theorem mem_scheduled_of_advances {rs rs' : List Request}
    (h : List.Forall₂ Request.Advances rs rs') (hm : Request.scheduled ∈ rs') :
    Request.scheduled ∈ rs := by
  induction h with
  | nil => exact hm
  | cons hr _ ih =>
    rcases List.mem_cons.1 hm with rfl | hm
    · rcases hr with rfl | ⟨_, hn, _⟩
      · exact List.mem_cons_self
      · exact absurd rfl hn
    · exact List.mem_cons_of_mem _ (ih hm)

/-- During a turn no request is cancelled, and those that have ended stay as they are. -/
theorem Coherent.advances_turn (h : a.Coherent) (hc : a.late = none ∨ a.hasScheduled = false) :
    List.Forall₂ Request.Advances a.requests a.turn.requests := by
  have hb := advances_trans (h.advances_beginRequests hc) advances_publishLate
  by_cases ht : ∃ n s, a.task = .running n s
  · obtain ⟨n, s, ht⟩ := ht
    rw [turn_of_running ht]
    exact advances_trans hb (advances_advance n s)
  · rwa [turn_of_not_running fun n s h => ht ⟨n, s, h⟩]

/-- All requests have begun after a turn. -/
theorem Invariant.hasScheduled_turn (h : a.Invariant)
    (hc : a.late = none ∨ a.hasScheduled = false) : a.turn.hasScheduled = false := by
  have hb := (h.beginRequests hc).2
  rw [hasScheduled_eq_false_iff] at hb ⊢
  intro hm
  by_cases ht : ∃ n s, a.task = .running n s
  · obtain ⟨n, s, ht⟩ := ht
    rw [turn_of_running ht] at hm
    exact hb (mem_scheduled_of_advances (advances_trans advances_publishLate
      (advances_advance n s)) hm)
  · rw [turn_of_not_running fun n s h => ht ⟨n, s, h⟩] at hm
    exact hb (mem_scheduled_of_advances advances_publishLate hm)

end Turns

/-! ### What a host does -/

section Hosts

theorem Invariant.request (h : a.Invariant) : a.request.Invariant := by
  refine ⟨h.coherent.withRequests _, fun r hr => ?_⟩
  rcases List.mem_append.1 hr with hr | hr
  · exact h.accounts r hr
  · rw [List.mem_singleton.1 hr]
    trivial

theorem getElem?_cancelRequest (i j : ℕ) :
    (a.cancelRequest i).requests[j]? = a.requests[j]?.map fun r =>
      if i = j then if r.isOpen then .ended .cancelled else r else r :=
  List.getElem?_modify _ i a.requests j

/-- Cancelling a request touches no other one. -/
theorem mem_cancelRequest {i : ℕ} {r : Request} (h : r ∈ (a.cancelRequest i).requests) :
    r = .ended .cancelled ∨ r ∈ a.requests := by
  obtain ⟨j, hj⟩ := List.mem_iff_getElem?.1 h
  rw [getElem?_cancelRequest] at hj
  obtain ⟨q, hq, rfl⟩ := Option.map_eq_some_iff.1 hj
  split_ifs
  · exact Or.inl rfl
  · exact Or.inr (List.mem_of_getElem? hq)
  · exact Or.inr (List.mem_of_getElem? hq)

theorem Invariant.cancelRequest (h : a.Invariant) (i : ℕ) : (a.cancelRequest i).Invariant := by
  refine ⟨h.coherent.withRequests _, fun r hr => ?_⟩
  rcases mem_cancelRequest hr with rfl | hr
  · exact Or.inl rfl
  · exact h.accounts r hr

section Stopping
variable {n : ℕ} {s : Stage} {t : Trace}

theorem cancel_of_late? (ht : a.task = .running n s) (hs : s.late? = some t) :
    a.cancel = { a with task := .none, late := some (n, t) } := by
  unfold Assembler.cancel
  rw [ht]
  simp only [hs]

theorem cancel_of_running (ht : a.task = .running n s) (hs : s.late? = none) :
    a.cancel = ({ a with task := .none } : Assembler).answerAll n .cancelled := by
  unfold Assembler.cancel
  rw [ht]
  simp only [hs]

theorem cancel_of_not_running (ht : ∀ n s, a.task ≠ .running n s) :
    a.cancel = { a with task := .none } := by
  unfold Assembler.cancel
  split
  · rename_i n s h
    exact absurd h (ht n s)
  · rfl

/-- Nothing happens when no build is remembered that could be cancelled. -/
theorem cancel_of_task_eq_none (ht : a.task = .none) : a.cancel = a := by
  rw [cancel_of_not_running (by simp [ht]), ← ht]

theorem leaveLoop_of_late? (ht : a.task = .running n s) (hs : s.late? = some t) :
    a.leaveLoop = { a.publish n (.error t) with requests := [], late := none } := by
  unfold Assembler.leaveLoop
  rw [ht]
  simp only [hs]

theorem leaveLoop_of_running (ht : a.task = .running n s) (hs : s.late? = none) :
    a.leaveLoop = { a with requests := [], late := none, task := .abandoned } := by
  unfold Assembler.leaveLoop
  rw [ht]
  simp only [hs]

theorem leaveLoop_of_not_running (ht : ∀ n s, a.task ≠ .running n s) :
    a.leaveLoop = { a.publishLate with requests := [], late := none } := by
  unfold Assembler.leaveLoop
  split
  · rename_i n s h
    exact absurd h (ht n s)
  · rfl

end Stopping

/-- **Cancelling keeps the invariant**: what is published stays, and a failure that is still to be
published is on its way to the requests that wait for it. -/
theorem Invariant.cancel (h : a.Invariant) : a.cancel.Invariant := by
  by_cases ht : ∃ n s, a.task = .running n s
  · obtain ⟨n, s, ht⟩ := ht
    have hd := not_done_of_running h.coherent ht
    cases hs : s.late? with
    | some t =>
      have hk : t.kind = .initialization := h.coherent.kind_of_late? ht hs
      rw [cancel_of_late? ht hs]
      refine ⟨h.coherent.forget hd ?_, fun r hr => ?_⟩
      · rintro m t' ⟨⟩
        exact hk
      · by_cases hn : r = .waiting n
        · subst hn
          exact Or.inr ⟨t, rfl⟩
        · exact h.accounts_of_running ht hr hn _
    | none =>
      rw [cancel_of_running ht hs]
      refine ⟨(h.coherent.forget hd h.coherent.kind_of_late).withRequests _,
        accounts_answerAll (Or.inl rfl) fun r hr hn => ?_⟩
      exact h.accounts_of_running ht hr hn _
  · have ht' : ∀ n s, a.task ≠ .running n s := fun n s h => ht ⟨n, s, h⟩
    rw [cancel_of_not_running ht']
    refine ⟨?_, fun r hr => ?_⟩
    · by_cases hd : a.done = true
      · have heq : ({ a with task := .none } : Assembler) = a := by
          rw [← (h.coherent.settled hd).1]
        rw [heq]
        exact h.coherent
      · exact h.coherent.forget hd h.coherent.kind_of_late
    · have ha := h.accounts r hr
      cases r with
      | scheduled => trivial
      | waiting n =>
        rcases ha with ⟨s, hs⟩ | hlt
        · exact absurd hs (ht' n s)
        · exact Or.inr hlt
      | ended o => exact ha

/-- A build that is left behind leaves nothing else. -/
theorem Coherent.leaveBehind (h : a.Coherent) {n : ℕ} {s : Stage} (ht : a.task = .running n s) :
    ({ a with requests := [], late := none, task := .abandoned } : Assembler).Coherent :=
  have hd := not_done_of_running h ht
  { h with
    settled := fun hd' => absurd hd' hd
    stage := by rintro _ _ ⟨⟩
    unbroken := by rintro _ _ ⟨⟩
    late := by rintro _ _ ⟨⟩ }

/-- **Leaving a loop keeps the invariant.** -/
theorem Invariant.leaveLoop (h : a.Invariant) : a.leaveLoop.Invariant := by
  by_cases ht : ∃ n s, a.task = .running n s
  · obtain ⟨n, s, ht⟩ := ht
    cases hs : s.late? with
    | some t =>
      rw [leaveLoop_of_late? ht hs]
      have hpublished := h.publish_error ht (h.coherent.kind_of_late? ht hs)
      exact ⟨hpublished.coherent.dropLate, by rintro _ ⟨⟩⟩
    | none =>
      rw [leaveLoop_of_running ht hs]
      exact ⟨h.coherent.leaveBehind ht, by rintro _ ⟨⟩⟩
  · rw [leaveLoop_of_not_running fun n s h => ht ⟨n, s, h⟩]
    exact ⟨h.publishLate.coherent.dropLate, by rintro _ ⟨⟩⟩

theorem closeLoop_of_running {n : ℕ} {s : Stage} (ht : a.task = .running n s) :
    a.closeLoop = { a with requests := [], late := none, task := .abandoned } := by
  unfold Assembler.closeLoop
  rw [ht]

theorem closeLoop_of_not_running (ht : ∀ n s, a.task ≠ .running n s) :
    a.closeLoop = { a with requests := [], late := none } := by
  unfold Assembler.closeLoop
  rcases h : a.task with _ | ⟨n, s⟩ | _ | ⟨n, t⟩
  · rfl
  · exact absurd h (ht n s)
  · rfl
  · rfl

/-- **Closing a loop keeps the invariant.** -/
theorem Invariant.closeLoop (h : a.Invariant) : a.closeLoop.Invariant := by
  by_cases ht : ∃ n s, a.task = .running n s
  · obtain ⟨n, s, ht⟩ := ht
    rw [closeLoop_of_running ht]
    exact ⟨h.coherent.leaveBehind ht, by rintro _ ⟨⟩⟩
  · rw [closeLoop_of_not_running fun n s h => ht ⟨n, s, h⟩]
    exact ⟨h.coherent.dropLate, by rintro _ ⟨⟩⟩

end Hosts

/-! ### Schedules -/

section Schedules

/-- A move of a schedule: a request, a turn of the loop, the cancellation of the request with an
index, the cancellation of the build, or leaving the loop. -/
inductive Move where
  | request
  | turn
  | withdraw (i : ℕ)
  | cancel
  | leave
  deriving DecidableEq

/-- Make a move. -/
def move (a : Assembler) : Move → Assembler
  | .request => a.request
  | .turn => a.turn
  | .withdraw i => a.cancelRequest i
  | .cancel => a.cancel
  | .leave => a.leaveLoop

/-- Make several moves. -/
def play (a : Assembler) (ms : List Move) : Assembler := ms.foldl move a

theorem play_cons (m : Move) (ms : List Move) : a.play (m :: ms) = (a.move m).play ms := rfl

theorem play_append (ms ms' : List Move) : a.play (ms ++ ms') = (a.play ms).play ms' :=
  List.foldl_append

/-- What can happen to an assembler: a move, or its loop is closed. -/
inductive Incident where
  | move (m : Move)
  | close
  deriving DecidableEq

/-- What comes of an incident. -/
def meet (a : Assembler) : Incident → Assembler
  | .move m => a.move m
  | .close => a.closeLoop

/-- What comes of several incidents. -/
def meetAll (a : Assembler) (incidents : List Incident) : Assembler := incidents.foldl meet a

theorem meetAll_cons (i : Incident) (incidents : List Incident) :
    a.meetAll (i :: incidents) = (a.meet i).meetAll incidents := rfl

theorem meetAll_map_move (ms : List Move) : a.meetAll (ms.map .move) = a.play ms := by
  rw [meetAll, List.foldl_map]
  rfl

/-- No request begins while the failure of a cancelled build is on its way. -/
def Careful : Assembler → List Incident → Prop
  | _, [] => True
  | a, i :: incidents =>
    (i = .move .turn → a.late = none ∨ a.hasScheduled = false) ∧ Careful (a.meet i) incidents

instance decidableCareful :
    (a : Assembler) → (incidents : List Incident) → Decidable (a.Careful incidents)
  | _, [] => isTrue trivial
  | a, i :: incidents =>
    have := decidableCareful (a.meet i) incidents
    inferInstanceAs (Decidable
      ((i = .move .turn → a.late = none ∨ a.hasScheduled = false) ∧ (a.meet i).Careful incidents))

theorem Invariant.move (h : a.Invariant) {m : Move}
    (hm : m = .turn → a.late = none ∨ a.hasScheduled = false) : (a.move m).Invariant := by
  cases m with
  | request => exact h.request
  | turn => exact h.turn (hm rfl)
  | withdraw i => exact h.cancelRequest i
  | cancel => exact h.cancel
  | leave => exact h.leaveLoop

theorem Invariant.meet (h : a.Invariant) {i : Incident}
    (hi : i = .move .turn → a.late = none ∨ a.hasScheduled = false) : (a.meet i).Invariant := by
  cases i with
  | move m => exact h.move fun hm => hi (congrArg Incident.move hm)
  | close => exact h.closeLoop

/-- **Whatever happens to an assembler** keeps the invariant, if it is careful. -/
theorem Invariant.meetAll {incidents : List Incident} (h : a.Invariant)
    (careful : a.Careful incidents) : (a.meetAll incidents).Invariant := by
  induction incidents generalizing a with
  | nil => exact h
  | cons i incidents ih => exact ih (h.meet careful.1) careful.2

end Schedules

end CodeHighlight.Assembler
