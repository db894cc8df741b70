import CodeHighlight.Proofs.HostSteps

/-!
# Assemblers with a past

An assembler that starts over has builds, requests for packages and a log behind it. It behaves like
an assembler without them: the past only shifts the numbers of its builds and stands before what it
asks for and reports (`meetAll_after`). What a loader delivers to it is what the loader has still to
deliver (`Loader.after`).

A build that a loop left behind is remembered until the next one starts, but makes no difference to
what follows (`forgetLeft_meetAll`).
-/

namespace CodeHighlight

/-- What a loader delivers when some packages have been asked for before. -/
def Loader.after (loader : Loader) (asked : List String) : Loader :=
  fun package n => loader package (asked.count package + n)

theorem Loader.isOrderly_after {loader : Loader} (orderly : loader.IsOrderly)
    (asked : List String) : (loader.after asked).IsOrderly := fun package _ => orderly package _

/-- What lies behind an assembler that starts over: how many builds there were, what was asked for,
and what was reported. -/
structure Past where
  builds : ℕ
  asked : List String
  log : List Event

namespace Past
variable (p : Past)

/-- A result whose build is counted on from the past ones. -/
def numbered {α : Type} (x : ℕ × α) : ℕ × α := (p.builds + x.1, x.2)

/-- An outcome whose build is counted on from the past ones. -/
def outcome : Outcome → Outcome
  | .registry n r => .registry (p.builds + n) r
  | .failure n t => .failure (p.builds + n) t
  | .cancelled => .cancelled

/-- A request whose build is counted on from the past ones. -/
def request : Request → Request
  | .scheduled => .scheduled
  | .waiting n => .waiting (p.builds + n)
  | .ended o => .ended (p.outcome o)

/-- A task whose build is counted on from the past ones. -/
def task : Task → Task
  | .none => .none
  | .running n s => .running (p.builds + n) s
  | .abandoned => .abandoned
  | .broken n t => .broken (p.builds + n) t

end Past

namespace Assembler
variable {p : Past} {loader : Loader} {a f : Assembler}

/-- The assembler as it is with a past behind it: it knows nothing of the past but counts on its
builds, its requests for packages and its log. -/
def after (f : Assembler) (p : Past) (loader : Loader) : Assembler where
  config := f.config
  loader := loader
  registry := f.registry.map p.numbered
  error := f.error.map p.numbered
  task := p.task f.task
  late := f.late.map p.numbered
  requests := f.requests.map p.request
  builds := p.builds + f.builds
  asked := p.asked ++ f.asked
  log := p.log ++ f.log

/-! ### Moves with a past -/

theorem done_after : (f.after p loader).done = f.done := by
  simp [done, after]

theorem hasScheduled_after : (f.after p loader).hasScheduled = f.hasScheduled := by
  unfold hasScheduled after
  rw [List.any_map]
  congr 1
  funext r
  cases r <;> rfl

theorem needsBuild_after : (f.after p loader).needsBuild = f.needsBuild := by
  unfold needsBuild
  rw [done_after]
  unfold after
  cases f.task <;> rfl

theorem ready_after : (f.after p loader).ready = f.ready.after p loader := by
  unfold ready
  rw [needsBuild_after]
  split_ifs <;> rfl

theorem begun_after : (f.after p loader).begun = p.request f.begun := by
  unfold begun after
  rcases f.registry with _ | ⟨n, r⟩
  · rcases f.error with _ | ⟨n, t⟩
    · cases f.task <;> rfl
    · rfl
  · rfl

theorem beginAs_request (begun r : Request) :
    beginAs (p.request begun) (p.request r) = p.request (beginAs begun r) := by
  cases r <;> rfl

theorem beginRequests_after :
    (f.after p loader).beginRequests = f.beginRequests.after p loader := by
  by_cases hs : f.hasScheduled = true
  · rw [beginRequests_eq hs, beginRequests_eq (hasScheduled_after.trans hs), ready_after,
      begun_after]
    unfold after
    simp only [List.map_map]
    congr 2
    funext r
    exact beginAs_request _ r
  · rw [Bool.not_eq_true] at hs
    rw [beginRequests_of_not_hasScheduled hs,
      beginRequests_of_not_hasScheduled (hasScheduled_after.trans hs)]

theorem answerAll_after (n : ℕ) (o : Outcome) :
    (f.after p loader).answerAll (p.builds + n) (p.outcome o) =
      (f.answerAll n o).after p loader := by
  unfold answerAll after
  simp only [List.map_map]
  congr 2
  funext r
  cases r with
  | waiting m =>
    by_cases hm : m = n
    · simp [Past.request, hm]
    · simp [Past.request, hm]
  | _ => rfl

theorem publish_after (n : ℕ) (result : Except Trace (List Registry)) :
    (f.after p loader).publish (p.builds + n) result = (f.publish n result).after p loader := by
  cases result with
  | error t =>
    unfold publish
    dsimp only
    split_ifs
    · exact answerAll_after (f := { f with error := some (n, t), task := .none }) n (.failure n t)
    · exact answerAll_after (f := { f with task := .broken n t }) n (.failure n t)
  | ok loaded =>
    unfold publish
    dsimp only
    have hc : (f.after p loader).config = f.config := rfl
    rw [hc]
    rcases Registry.languages (Registry.build f.config.explicit loaded f.config.precedence)
      with t | keys
    · exact answerAll_after (f := { f with registry := some (n, _), task := .none }) n
        (.failure n t)
    · refine Eq.trans ?_ (answerAll_after
        (f := { f with
          registry := some (n, _), task := .none, log := f.log ++ [Event.registryReady keys] })
        n (.registry n _))
      show answerAll { f.after p loader with
        registry := _, task := _, log := p.log ++ f.log ++ [Event.registryReady keys] } _ _ = _
      rw [List.append_assoc]
      rfl

theorem publishLate_after : (f.after p loader).publishLate = f.publishLate.after p loader := by
  unfold publishLate
  rcases hl : f.late with _ | ⟨n, t⟩
  · simp [after, hl]
  · have hla : (f.after p loader).late = some (p.builds + n, t) := by
      simp [after, hl, Past.numbered]
    rw [hla]
    dsimp only
    split_ifs
    · exact answerAll_after (f := { f with error := some (n, t), late := none }) n (.failure n t)
    · exact answerAll_after (f := { f with late := none }) n (.failure n t)

theorem finishLoads_after (n elapsed : ℕ) (loads : List Load) :
    (f.after p loader).finishLoads (p.builds + n) elapsed loads =
      (f.finishLoads n elapsed loads).after p loader := by
  unfold finishLoads after
  dsimp only
  rw [List.append_assoc]
  rfl

/-- The packages that were asked for before decide what a loader delivers now. -/
theorem askAll_after (asked before packages : List String) :
    Load.askAll (loader.after asked) before packages =
      Load.askAll loader (asked ++ before) packages := by
  induction packages generalizing before with
  | nil => rfl
  | cons q packages ih =>
    rw [Load.askAll, Load.askAll, ih, Loader.after, List.count_append, List.append_assoc]

theorem advance_after (hf : f.loader = loader.after p.asked) (n : ℕ) (s : Stage) :
    (f.after p loader).advance (p.builds + n) s = (f.advance n s).after p loader := by
  cases s with
  | scheduled =>
    by_cases hp : f.config.packages.isEmpty = true
    · rw [advance_scheduled_of_isEmpty hp, advance_scheduled_of_isEmpty (a := f.after p loader) hp,
        publish_after]
    · have hloads : (f.after p loader).loadsAfter (f.after p loader).asked =
          f.loadsAfter f.asked := by
        show Load.askAll loader (p.asked ++ f.asked) f.config.packages = _
        rw [loadsAfter, hf, askAll_after]
      have hasking : (f.after p loader).asking = f.asking.after p loader := by
        unfold asking after
        dsimp only
        rw [List.append_assoc]
      rw [advance_scheduled hp, advance_scheduled (a := f.after p loader) hp, hloads, hasking,
        finishLoads_after]
  | loading elapsed loads => exact finishLoads_after n _ loads
  | failing t => rfl
  | settled result => exact publish_after n result

theorem task_after_running {n : ℕ} {s : Stage} (ht : f.task = .running n s) :
    (f.after p loader).task = .running (p.builds + n) s := by
  simp [after, ht, Past.task]

theorem isBuilding_after : (f.after p loader).IsBuilding ↔ f.IsBuilding := by
  unfold IsBuilding after
  cases f.task <;> simp [Past.task]

theorem turn_after (hf : f.loader = loader.after p.asked) :
    (f.after p loader).turn = f.turn.after p loader := by
  by_cases ht : f.IsBuilding
  · obtain ⟨n, s, ht⟩ := ht
    have horigin : f.beginRequests.publishLate.origin = f.origin :=
      origin_publishLate.trans origin_beginRequests
    rw [turn_of_running ht, turn_of_running (task_after_running ht), beginRequests_after,
      publishLate_after, advance_after ((congrArg Prod.snd horigin).trans hf)]
  · rw [turn_of_not_running fun n s h => ht ⟨n, s, h⟩,
      turn_of_not_running fun n s h => ht (isBuilding_after.1 ⟨n, s, h⟩), beginRequests_after,
      publishLate_after]

theorem cancelRequest_after (i : ℕ) :
    (f.after p loader).cancelRequest i = (f.cancelRequest i).after p loader := by
  unfold cancelRequest after
  dsimp only
  congr 1
  refine List.ext_getElem? fun j => ?_
  simp only [List.getElem?_map, List.getElem?_modify]
  rcases f.requests[j]? with _ | r
  · rfl
  · by_cases hj : i = j
    · cases r <;> simp [hj, Request.isOpen, Past.request, Past.outcome]
    · simp [hj]

theorem not_running_after (ht : ¬f.IsBuilding) (n : ℕ) (s : Stage) :
    (f.after p loader).task ≠ .running n s :=
  fun h => ht (isBuilding_after.1 ⟨n, s, h⟩)

theorem cancel_after : (f.after p loader).cancel = f.cancel.after p loader := by
  by_cases ht : f.IsBuilding
  · obtain ⟨n, s, ht⟩ := ht
    cases hs : s.late? with
    | some t =>
      rw [cancel_of_late? ht hs, cancel_of_late? (task_after_running ht) hs]
      rfl
    | none =>
      rw [cancel_of_running ht hs, cancel_of_running (task_after_running ht) hs]
      exact answerAll_after (f := { f with task := .none }) n .cancelled
  · rw [cancel_of_not_running fun n s h => ht ⟨n, s, h⟩,
      cancel_of_not_running (not_running_after ht)]
    rfl

theorem leaveLoop_after : (f.after p loader).leaveLoop = f.leaveLoop.after p loader := by
  by_cases ht : f.IsBuilding
  · obtain ⟨n, s, ht⟩ := ht
    cases hs : s.late? with
    | some t =>
      rw [leaveLoop_of_late? ht hs, leaveLoop_of_late? (task_after_running ht) hs, publish_after]
      rfl
    | none =>
      rw [leaveLoop_of_running ht hs, leaveLoop_of_running (task_after_running ht) hs]
      rfl
  · rw [leaveLoop_of_not_running fun n s h => ht ⟨n, s, h⟩,
      leaveLoop_of_not_running (not_running_after ht), publishLate_after]
    rfl

theorem closeLoop_after : (f.after p loader).closeLoop = f.closeLoop.after p loader := by
  unfold closeLoop after
  cases f.task <;> rfl

theorem request_after : (f.after p loader).request = f.request.after p loader := by
  unfold request after
  simp [Past.request]

theorem move_after (hf : f.loader = loader.after p.asked) (m : Move) :
    (f.after p loader).move m = (f.move m).after p loader := by
  cases m with
  | request => exact request_after
  | turn => exact turn_after hf
  | withdraw i => exact cancelRequest_after i
  | cancel => exact cancel_after
  | leave => exact leaveLoop_after

theorem meet_after (hf : f.loader = loader.after p.asked) (i : Incident) :
    (f.after p loader).meet i = (f.meet i).after p loader := by
  cases i with
  | move m => exact move_after hf m
  | close => exact closeLoop_after

/-- **An assembler with a past behind it** behaves as it would without. -/
theorem meetAll_after (hf : f.loader = loader.after p.asked) (incidents : List Incident) :
    (f.after p loader).meetAll incidents = (f.meetAll incidents).after p loader := by
  induction incidents generalizing f with
  | nil => rfl
  | cons i incidents ih =>
    have hmeet : (f.meet i).loader = loader.after p.asked :=
      (congrArg Prod.snd (origin_meetAll [i])).trans hf
    rw [meetAll_cons, meetAll_cons, meet_after hf, ih hmeet]

/-! ### Builds that were left behind -/

/-- The assembler without the memory of a build that a loop left behind. -/
def forgetLeft (a : Assembler) : Assembler :=
  { a with
    task := match a.task with
      | .abandoned => .none
      | t => t }

theorem forgetLeft_eq_self (h : a.task ≠ .abandoned) : a.forgetLeft = a := by
  obtain ⟨_, _, _, _, task, _, _, _, _, _⟩ := a
  cases task with
  | abandoned => exact absurd rfl h
  | _ => rfl

theorem forgetLeft_of_abandoned (h : a.task = .abandoned) :
    a.forgetLeft = { a with task := .none } := by
  simp [forgetLeft, h]

theorem forgetLeft_publishLate (h : a.task = .abandoned) :
    a.publishLate.forgetLeft = ({ a with task := .none } : Assembler).publishLate.forgetLeft := by
  obtain ⟨_, _, _, _, _, late, _, _, _, _⟩ := a
  subst h
  rcases late with _ | ⟨n, t⟩
  · rfl
  · unfold publishLate
    dsimp only
    split_ifs <;> rfl

/-- The requests that begin do not notice that a build was left behind: they start the same build,
or are answered alike. -/
theorem beginRequests_of_abandoned (h : a.task = .abandoned) :
    a.beginRequests = ({ a with task := .none } : Assembler).beginRequests ∨
      ∃ rs, a.beginRequests = { a with requests := rs } ∧
        ({ a with task := .none } : Assembler).beginRequests =
          { a with requests := rs, task := .none } := by
  have hn : ({ a with task := .none } : Assembler).needsBuild = a.needsBuild := by
    simp [needsBuild, h, done]
  by_cases hs : a.hasScheduled = true
  · rw [beginRequests_eq hs, beginRequests_eq (a := { a with task := .none }) hs]
    unfold ready
    rw [hn]
    by_cases hb : a.needsBuild = true
    · rw [if_pos hb, if_pos hb]
      exact Or.inl rfl
    · rw [if_neg hb, if_neg hb]
      have hbegun : ({ a with task := .none } : Assembler).begun = a.begun := by
        unfold begun
        rw [h]
        rcases a.registry with _ | ⟨n, r⟩
        · rcases a.error with _ | ⟨n, t⟩ <;> rfl
        · rfl
      rw [hbegun]
      exact Or.inr ⟨_, rfl, rfl⟩
  · rw [Bool.not_eq_true] at hs
    rw [beginRequests_of_not_hasScheduled hs,
      beginRequests_of_not_hasScheduled (a := { a with task := .none }) hs]
    exact Or.inr ⟨a.requests, rfl, rfl⟩

theorem forgetLeft_turn (h : a.task = .abandoned) :
    a.turn.forgetLeft = ({ a with task := .none } : Assembler).turn.forgetLeft := by
  rw [turn_of_not_running (by simp [h]), turn_of_not_running (by simp)]
  rcases beginRequests_of_abandoned h with heq | ⟨rs, hleft, hnone⟩
  · rw [heq]
  · rw [hleft, hnone]
    exact forgetLeft_publishLate (a := { a with requests := rs }) h

theorem forgetLeft_leaveLoop (h : a.task = .abandoned) :
    a.leaveLoop.forgetLeft = ({ a with task := .none } : Assembler).leaveLoop.forgetLeft := by
  rw [leaveLoop_of_not_running (by simp [h]), leaveLoop_of_not_running (by simp)]
  exact congrArg (fun b : Assembler => { b with requests := [], late := none })
    (forgetLeft_publishLate h)

theorem forgetLeft_meet (i : Incident) :
    (a.meet i).forgetLeft = (a.forgetLeft.meet i).forgetLeft := by
  by_cases h : a.task = .abandoned
  · rw [forgetLeft_of_abandoned h]
    cases i with
    | close => simp [meet, closeLoop, forgetLeft, h]
    | move m =>
      cases m with
      | turn => exact forgetLeft_turn h
      | leave => exact forgetLeft_leaveLoop h
      | cancel =>
        show a.cancel.forgetLeft = ({ a with task := .none } : Assembler).cancel.forgetLeft
        rw [cancel_of_not_running (by simp [h]), cancel_of_not_running (by simp)]
      | request => simp [meet, move, request, forgetLeft, h]
      | withdraw i => simp [meet, move, cancelRequest, forgetLeft, h]
  · rw [forgetLeft_eq_self h]

/-- **A build that was left behind** makes no difference to what follows. -/
theorem forgetLeft_meetAll (incidents : List Incident) :
    (a.meetAll incidents).forgetLeft = (a.forgetLeft.meetAll incidents).forgetLeft := by
  induction incidents generalizing a with
  | nil =>
    show a.forgetLeft = a.forgetLeft.forgetLeft
    by_cases h : a.task = .abandoned
    · rw [forgetLeft_of_abandoned h]
      rfl
    · rw [forgetLeft_eq_self h, forgetLeft_eq_self h]
  | cons i incidents ih => rw [meetAll_cons, meetAll_cons, ih, forgetLeft_meet, ← ih]

end Assembler

end CodeHighlight
