import CodeHighlight.Proofs.Permanence
import CodeHighlight.Proofs.Verdict

/-!
# One outcome, whatever the loader delivers

Main statement: `sharesOutcome_iff`. All requests have one outcome, the registry or a failure of
initialization, if and only if the keys of the mappings can be put in order where a build depends on
it (`KeysOrderable`).

When the outcome of the first build can be shared, it is kept once the build is over, and it is the
outcome of those that wait and of all that come later (`Steady`). When it cannot be shared, the
first request is given a failure of another kind (`isShared_of_sharesOutcome`).
-/

namespace CodeHighlight.Assembler
variable {a : Assembler} {config : Config} {loader : Loader}

/-! ### Outcomes that are kept -/

/-- The outcome is published, no other one is, and no build is remembered. -/
structure Keeps (a : Assembler) (o : Outcome) : Prop where
  task : a.task = .none
  published : a.Published o
  single : a.registry = none ∨ a.error = none

/-- An outcome that can be shared is kept when a verdict is published. -/
theorem keeps_publish (hr : a.registry = none) (he : a.error = none) {n : ℕ}
    {result : Except Trace (List Registry)} (shared : (given a.config n result).IsShared) :
    (a.publish n result).Keeps (given a.config n result) := by
  cases result with
  | error t =>
    have hkind : t.kind = .initialization := Outcome.isShared_failure_iff.1 shared
    unfold publish
    dsimp only
    rw [if_pos hkind]
    exact ⟨rfl, Or.inr ⟨n, t, rfl, rfl⟩, Or.inl hr⟩
  | ok loaded =>
    obtain ⟨keys, hkeys⟩ := isShared_given_ok_iff.1 shared
    simp only [publish, given, hkeys]
    exact ⟨rfl, Or.inl ⟨n, _, rfl, rfl⟩, Or.inr he⟩

theorem Keeps.done {o : Outcome} (h : a.Keeps o) : a.done = true := h.published.done

theorem Keeps.begun {o : Outcome} (h : a.Keeps o) : a.begun = .ended o := by
  rcases h.published with ⟨n, r, hr, rfl⟩ | ⟨n, t, ht, rfl⟩
  · exact begun_of_registry hr
  · rcases h.single with hr | he
    · simp [Assembler.begun, hr, ht]
    · rw [he] at ht
      cases ht

theorem Keeps.not_isBuilding {o : Outcome} (h : a.Keeps o) : ¬a.IsBuilding := by
  rintro ⟨n, s, ht⟩
  rw [h.task] at ht
  cases ht

/-- Requests that begin are given the outcome, and a turn does nothing else. -/
theorem Keeps.turn_eq {o : Outcome} (h : a.Keeps o) (hl : a.late = none) :
    a.turn = a.answered o := by
  rw [turn_of_not_running (by simp [h.task]), publishLate_beginRequests hl,
    beginRequests_of_not_needsBuild (by simp [needsBuild, h.done]), h.begun]
  rfl

theorem Keeps.of_core_eq {o : Outcome} {b : Assembler} (h : a.Keeps o) (hc : b.core = a.core) :
    b.Keeps o := by
  have hb : b.core.Keeps o := by
    rw [hc]
    exact ⟨h.task, h.published, h.single⟩
  exact ⟨hb.task, hb.published, hb.single⟩

theorem Keeps.core_move {o : Outcome} (h : a.Keeps o) (hl : a.late = none) (m : Move) :
    (a.move m).core = a.core := by
  cases m with
  | request => rfl
  | withdraw i => rfl
  | turn =>
    show a.turn.core = a.core
    rw [h.turn_eq hl]
    rfl
  | cancel =>
    show a.cancel.core = a.core
    rw [cancel_of_task_eq_none h.task]
  | leave => exact core_leaveLoop hl h.not_isBuilding

/-- **An outcome that is kept** stays, whatever happens, and nothing else changes. -/
theorem Keeps.core_play {o : Outcome} (h : a.Keeps o) (hl : a.late = none) (later : List Move) :
    (a.play later).core = a.core := by
  induction later generalizing a with
  | nil => rfl
  | cons m later ih =>
    have hcore := h.core_move hl m
    have hl' : (a.move m).late = none := (congrArg Assembler.late hcore).trans hl
    exact (ih (h.of_core_eq hcore) hl').trans hcore

/-! ### All schedules -/

/-- No build is cancelled, and none is left behind by its loop. -/
def Uninterrupted : Assembler → List Move → Prop
  | _, [] => True
  | a, m :: ms => (m = .cancel ∨ m = .leave → ¬a.IsBuilding) ∧ Uninterrupted (a.move m) ms

/-- All requests are as this one, unless they have not begun or were cancelled. -/
def AllAs (b : Request) (rs : List Request) : Prop :=
  ∀ r ∈ rs, r = .scheduled ∨ r = .ended .cancelled ∨ r = b

/-- The first build has not begun, is under way, or its outcome is kept, and all requests are as
those that begin now. -/
structure Steady (config : Config) (loader : Loader) (a : Assembler) : Prop where
  origin : a.origin = (config, loader)
  late : a.late = none
  build : a.core = initial config loader ∨ a.IsUnderway ∨ a.Keeps (firstOutcome config loader)
  requests : AllAs a.begun a.requests

theorem steady_initial : (initial config loader).Steady config loader :=
  ⟨rfl, rfl, Or.inl rfl, by rintro _ ⟨⟩⟩

theorem Steady.loadsAfter_eq (h : a.Steady config loader) :
    a.loadsAfter [] = Load.askAll loader [] config.packages := by
  have hconfig : a.config = config := congrArg Prod.fst h.origin
  have hloader : a.loader = loader := congrArg Prod.snd h.origin
  rw [loadsAfter, hconfig, hloader]

theorem Steady.given_eq (h : a.Steady config loader) :
    given a.config 0 (Load.verdict (a.loadsAfter [])) = firstOutcome config loader := by
  have hconfig : a.config = config := congrArg Prod.fst h.origin
  rw [h.loadsAfter_eq, hconfig, firstOutcome]

/-- What a build has come to has nothing to do with the requests. -/
theorem Steady.of_core_eq {b : Assembler} (h : a.Steady config loader) (hc : b.core = a.core)
    (hr : ∀ r ∈ b.requests, r = .scheduled ∨ r = .ended .cancelled ∨ r ∈ a.requests) :
    b.Steady config loader := by
  constructor
  · exact (congrArg Assembler.origin hc).trans h.origin
  · exact (congrArg Assembler.late hc).trans h.late
  · rcases h.build with hnew | hunder | hkeeps
    · exact Or.inl (hc.trans hnew)
    · exact Or.inr (Or.inl (hunder.of_core_eq hc))
    · exact Or.inr (Or.inr (hkeeps.of_core_eq hc))
  · have hbegun : b.begun = a.begun := by
      show b.core.begun = a.core.begun
      rw [hc]
    intro r hm
    rw [hbegun]
    rcases hr r hm with hr | hr | hr
    · exact Or.inl hr
    · exact Or.inr (Or.inl hr)
    · exact h.requests r hr

/-! ### Open requests follow the build -/

/-- A request as it is when those that are open have come to what a build has come to. -/
def followAs (begun : Request) : Request → Request
  | .ended o => .ended o
  | _ => begun

theorem followAs_of_isOpen {b r : Request} (h : r.isOpen = true) : followAs b r = b := by
  cases r with
  | ended o => cases h
  | _ => rfl

theorem AllAs.map_beginAs {rs : List Request} {b : Request} (h : AllAs b rs) :
    rs.map (beginAs b) = rs.map (followAs b) := by
  apply List.map_congr_left
  intro r hr
  rcases h r hr with rfl | rfl | rfl
  · rfl
  · rfl
  · cases r <;> rfl

/-- Requests that were open come to what they follow, and those that had ended stay as they are. -/
theorem AllAs.map_followAs {rs : List Request} {b b' : Request} (h : AllAs b rs)
    (hb : b.isOpen = true ∨ b = b') : AllAs b' (rs.map (followAs b')) := by
  intro r hr
  obtain ⟨q, hq, rfl⟩ := List.mem_map.1 hr
  rcases h q hq with rfl | rfl | rfl
  · exact Or.inr (Or.inr rfl)
  · exact Or.inr (Or.inl rfl)
  · rcases hb with ho | rfl
    · exact Or.inr (Or.inr (followAs_of_isOpen ho))
    · cases q <;> exact Or.inr (Or.inr rfl)

/-- All requests that wait for a build, or begin to, come to its outcome. -/
theorem AllAs.requests_answerAll {rs : List Request} (h : AllAs (.waiting 0) rs) (o : Outcome) :
    (answerAll { a with requests := rs.map (beginAs (.waiting 0)) } 0 o).requests =
      rs.map (followAs (.ended o)) := by
  unfold answerAll
  rw [List.map_map]
  apply List.map_congr_left
  intro r hr
  rcases h r hr with rfl | rfl | rfl <;> rfl

/-! ### Turns -/

theorem begun_of_core_initial (h : a.core = initial config loader) : a.begun = .scheduled := by
  show a.core.begun = _
  rw [h]
  rfl

theorem eq_of_core_initial (h : a.core = initial config loader) :
    a = { initial config loader with requests := a.requests } := by
  rw [← h]
  rfl

/-- The first request that begins starts the first build. -/
theorem Steady.turn_of_new (h : a.Steady config loader) (hnew : a.core = initial config loader)
    (hs : a.hasScheduled = true) :
    a.turn.IsUnderway ∧ a.turn.requests = a.requests.map (followAs a.turn.begun) := by
  have ha := eq_of_core_initial hnew
  have hturn : a.turn = { (initial config loader).ready with
      requests := a.requests.map (beginAs (.waiting 0)) } := by
    rw [turn_of_not_running (by rw [ha]; rintro _ _ ⟨⟩), publishLate_beginRequests h.late,
      beginRequests_eq hs, ha]
    rfl
  have hunder : a.turn.IsUnderway := by
    rw [hturn]
    exact ⟨rfl, rfl, rfl, .scheduled, rfl, rfl⟩
  -- nothing has been given to any request, so that those that have not begun are the only open ones
  have hall : AllAs (.waiting 0) a.requests := by
    intro r hr
    have hr' := h.requests r hr
    rw [begun_of_core_initial hnew] at hr'
    tauto
  refine ⟨hunder, ?_⟩
  rw [hunder.begun, hturn]
  exact hall.map_beginAs

/-- Nothing happens when no request begins and no build has begun. -/
theorem Steady.turn_of_idle (h : a.Steady config loader) (hnew : a.core = initial config loader)
    (hs : a.hasScheduled = false) : a.turn = a := by
  have htask : a.task = .none := (task_of_core hnew).trans rfl
  rw [turn_of_not_running (by simp [htask]), publishLate_beginRequests h.late,
    beginRequests_of_not_hasScheduled hs]

/-- Once an outcome is kept, the requests that begin are given it. -/
theorem Steady.turn_of_keeps {o : Outcome} (h : a.Steady config loader) (hkeeps : a.Keeps o) :
    a.turn.Keeps o ∧ a.turn.requests = a.requests.map (followAs a.turn.begun) := by
  have hturn := hkeeps.turn_eq h.late
  have hkeeps' : a.turn.Keeps o := by
    rw [hturn]
    exact ⟨hkeeps.task, hkeeps.published, hkeeps.single⟩
  have hall : AllAs (.ended o) a.requests := by
    rw [← hkeeps.begun]
    exact h.requests
  refine ⟨hkeeps', ?_⟩
  rw [hkeeps'.begun, hturn]
  exact hall.map_beginAs

/-- Nothing happens when a build that is not under way is cancelled. -/
theorem Steady.cancel_eq (h : a.Steady config loader) (hb : ¬a.IsBuilding) : a.cancel = a := by
  rcases h.build with hnew | hunder | hkeeps
  · rw [eq_of_core_initial hnew]
    rfl
  · exact absurd hunder.isBuilding hb
  · exact cancel_of_task_eq_none hkeeps.task

section Shared
variable (shared : (firstOutcome config loader).IsShared)
include shared

/-- The requests of a build under way wait for its next stage, or they are given its outcome. -/
theorem Steady.turn_of_isUnderway (h : a.Steady config loader) (hunder : a.IsUnderway) :
    (a.turn.IsUnderway ∨ a.turn.Keeps (firstOutcome config loader)) ∧
      a.turn.requests = a.requests.map (followAs a.turn.begun) := by
  have hall : AllAs (.waiting 0) a.requests := by
    rw [← hunder.begun]
    exact h.requests
  rcases hunder.turn with ⟨hturn, hreq⟩ | heq
  · refine ⟨Or.inl hturn, ?_⟩
    rw [hturn.begun, hreq]
    exact hall.map_beginAs
  · rw [← h.given_eq] at shared ⊢
    have hkeeps : a.turn.Keeps (given a.config 0 (Load.verdict (a.loadsAfter []))) := by
      rw [heq]
      exact keeps_publish (a := { a with requests := a.requests.map _ }) hunder.registry
        hunder.error shared
    refine ⟨Or.inr hkeeps, ?_⟩
    rw [hkeeps.begun, heq, requests_publish]
    exact hall.requests_answerAll _

/-- **A turn keeps an assembler steady.** Either there is nothing to do, or all open requests come
to what the build comes to. -/
theorem Steady.turn (h : a.Steady config loader) :
    a.turn.Steady config loader ∧
      ((a.core = initial config loader ∧ a.hasScheduled = false ∧ a.turn = a) ∨
        (a.turn.IsUnderway ∨ a.turn.Keeps (firstOutcome config loader)) ∧
          a.turn.requests = a.requests.map (followAs a.turn.begun)) := by
  have hsteady (hopen : a.begun.isOpen = true ∨ a.begun = a.turn.begun)
      (hbuild : a.turn.IsUnderway ∨ a.turn.Keeps (firstOutcome config loader))
      (hreq : a.turn.requests = a.requests.map (followAs a.turn.begun)) :
      a.turn.Steady config loader := by
    refine ⟨origin_turn.trans h.origin, late_turn, Or.inr hbuild, ?_⟩
    rw [hreq]
    exact h.requests.map_followAs hopen
  rcases h.build with hnew | hunder | hkeeps
  · by_cases hs : a.hasScheduled = true
    · obtain ⟨hturn, hreq⟩ := h.turn_of_new hnew hs
      have hopen : a.begun.isOpen = true := by
        rw [begun_of_core_initial hnew]
        rfl
      exact ⟨hsteady (Or.inl hopen) (Or.inl hturn) hreq, Or.inr ⟨Or.inl hturn, hreq⟩⟩
    · rw [Bool.not_eq_true] at hs
      have heq := h.turn_of_idle hnew hs
      refine ⟨?_, Or.inl ⟨hnew, hs, heq⟩⟩
      rw [heq]
      exact h
  · obtain ⟨hbuild, hreq⟩ := h.turn_of_isUnderway shared hunder
    have hopen : a.begun.isOpen = true := by
      rw [hunder.begun]
      rfl
    exact ⟨hsteady (Or.inl hopen) hbuild hreq, Or.inr ⟨hbuild, hreq⟩⟩
  · obtain ⟨hturn, hreq⟩ := h.turn_of_keeps hkeeps
    have hsame : a.begun = a.turn.begun := hkeeps.begun.trans hturn.begun.symm
    exact ⟨hsteady (Or.inr hsame) (Or.inr hturn) hreq, Or.inr ⟨Or.inr hturn, hreq⟩⟩

theorem Steady.move (h : a.Steady config loader) {m : Move}
    (hm : m = .cancel ∨ m = .leave → ¬a.IsBuilding) : (a.move m).Steady config loader := by
  cases m with
  | turn => exact (h.turn shared).1
  | request =>
    refine h.of_core_eq rfl fun r hr => ?_
    rcases List.mem_append.1 hr with hr | hr
    · exact Or.inr (Or.inr hr)
    · exact Or.inl (List.mem_singleton.1 hr)
  | withdraw i => exact h.of_core_eq rfl fun r hr => Or.inr (mem_cancelRequest hr)
  | cancel =>
    rw [show a.move .cancel = a from h.cancel_eq (hm (Or.inl rfl))]
    exact h
  | leave => exact h.of_core_eq (core_leaveLoop h.late (hm (Or.inr rfl))) (by rintro _ ⟨⟩)

/-- **Every moment of an uninterrupted schedule** is steady. -/
theorem Steady.play {ms : List Move} (h : a.Steady config loader) (hms : a.Uninterrupted ms) :
    (a.play ms).Steady config loader := by
  induction ms generalizing a with
  | nil => exact h
  | cons m ms ih => exact ih (h.move shared hms.1) hms.2

end Shared

/-- A request that has ended was cancelled, or it has the outcome that is kept. -/
theorem Steady.outcome_of_ended (h : a.Steady config loader) {o : Outcome}
    (ho : .ended o ∈ a.requests) :
    o = .cancelled ∨ o = firstOutcome config loader ∧ a.done = true := by
  rcases h.requests _ ho with hq | hq | hq
  · cases hq
  · cases hq
    exact Or.inl rfl
  · rcases h.build with hnew | hunder | hkeeps
    · rw [begun_of_core_initial hnew] at hq
      cases hq
    · rw [hunder.begun] at hq
      cases hq
    · rw [hkeeps.begun] at hq
      cases hq
      exact Or.inr ⟨rfl, hkeeps.done⟩

/-- What is published is the outcome that is kept. -/
theorem Steady.keeps_of_done (h : a.Steady config loader) (hd : a.done = true) :
    a.Keeps (firstOutcome config loader) := by
  rcases h.build with hnew | hunder | hkeeps
  · have hfresh : a.core.done = true := hd
    rw [hnew] at hfresh
    cases hfresh
  · exact absurd hd (not_done_iff.2 ⟨hunder.registry, hunder.error⟩)
  · exact hkeeps

/-! ### Waiting for the outcome -/

/-- The number of turns after which an open request has ended. -/
def turnsAhead (a : Assembler) : ℕ :=
  match a.task with
  | .running _ _ => a.remaining
  | _ => Load.longest (a.loadsAfter []) + 4

theorem IsUnderway.turnsAhead_eq (h : a.IsUnderway) : a.turnsAhead = a.remaining := by
  obtain ⟨s, ht, _⟩ := h.stage
  rw [turnsAhead, ht]

theorem IsUnderway.turnsAhead_pos (h : a.IsUnderway) : 0 < a.turnsAhead := by
  rw [h.turnsAhead_eq]
  exact (Nat.zero_le _).trans_lt (remaining_turn h.late h.isBuilding)

theorem turnsAhead_of_not_isBuilding (h : ¬a.IsBuilding) :
    a.turnsAhead = Load.longest (a.loadsAfter []) + 4 := by
  unfold turnsAhead
  rcases ht : a.task with _ | ⟨n, s⟩ | _ | ⟨n, t⟩
  · rfl
  · exact absurd ⟨n, s, ht⟩ h
  · rfl
  · rfl

theorem Steady.isUnderway (h : a.Steady config loader) (hb : a.IsBuilding) : a.IsUnderway := by
  rcases h.build with hnew | hunder | hkeeps
  · obtain ⟨n, s, ht⟩ := hb
    rw [task_of_core hnew] at ht
    cases ht
  · exact hunder
  · exact absurd hb hkeeps.not_isBuilding

theorem Steady.turnsAhead_le (h : a.Steady config loader) :
    a.turnsAhead ≤ Load.longest (Load.askAll loader [] config.packages) + 4 := by
  have hloads : a.loadsAfter [] = Load.askAll loader [] config.packages := h.loadsAfter_eq
  by_cases hb : a.IsBuilding
  · have hunder := h.isUnderway hb
    have hle := hunder.remaining_le
    rw [hunder.turnsAhead_eq, ← hloads]
    omega
  · rw [turnsAhead_of_not_isBuilding hb, hloads]

theorem Steady.turnsAhead_pos (h : a.Steady config loader) : 0 < a.turnsAhead := by
  by_cases hb : a.IsBuilding
  · exact (h.isUnderway hb).turnsAhead_pos
  · rw [turnsAhead_of_not_isBuilding hb]
    omega

section Shared
variable (shared : (firstOutcome config loader).IsShared)
include shared

/-- A turn ends an open request, or fewer turns are left to come. -/
theorem Steady.turnsAhead_turn (h : a.Steady config loader) {i : ℕ} {r : Request}
    (hr : a.requests[i]? = some r) (hopen : r.isOpen = true) :
    a.turn.requests[i]? = some (.ended (firstOutcome config loader)) ∨
      a.turn.requests[i]? = some (.waiting 0) ∧ a.turn.turnsAhead < a.turnsAhead := by
  obtain ⟨hturn, ⟨hnew, hs, _⟩ | ⟨hbuild, hreq⟩⟩ := h.turn shared
  · -- an open request would have started the first build
    have hm := List.mem_of_getElem? hr
    have hsched : r = .scheduled := by
      rcases h.requests r hm with hq | rfl | hq
      · exact hq
      · cases hopen
      · exact hq.trans (begun_of_core_initial hnew)
    rw [hsched] at hm
    exact absurd hm (hasScheduled_eq_false_iff.1 hs)
  · have hi : a.turn.requests[i]? = some a.turn.begun := by
      rw [hreq, List.getElem?_map, hr, Option.map_some, followAs_of_isOpen hopen]
    rcases hbuild with hunder | hkeeps
    · rw [hunder.begun] at hi
      refine Or.inr ⟨hi, ?_⟩
      rw [hunder.turnsAhead_eq]
      by_cases hb : a.IsBuilding
      · rw [(h.isUnderway hb).turnsAhead_eq]
        exact remaining_turn h.late hb
      · have hle := hunder.remaining_le
        rw [hturn.loadsAfter_eq] at hle
        rw [turnsAhead_of_not_isBuilding hb, h.loadsAfter_eq]
        omega
    · rw [hkeeps.begun] at hi
      exact Or.inl hi

/-- A request that has ended stays as it is while its loop goes on. -/
theorem Steady.getElem?_play_of_ended (h : a.Steady config loader) {ms : List Move} {i : ℕ}
    {o : Outcome} (hms : a.Uninterrupted ms) (hleave : ∀ m ∈ ms, m ≠ .leave)
    (hr : a.requests[i]? = some (.ended o)) : (a.play ms).requests[i]? = some (.ended o) := by
  induction ms generalizing a with
  | nil => exact hr
  | cons m ms ih =>
    obtain ⟨hm, hms⟩ := hms
    obtain ⟨hl, hrest⟩ := List.forall_mem_cons.1 hleave
    refine ih (h.move shared hm) hms hrest ?_
    cases m with
    | request => exact getElem?_request hr
    | withdraw j =>
      show (a.cancelRequest j).requests[i]? = _
      rw [getElem?_cancelRequest, hr]
      simp [Request.isOpen]
    | cancel =>
      show a.cancel.requests[i]? = _
      rw [h.cancel_eq (hm (Or.inl rfl)), hr]
    | leave => exact absurd rfl hl
    | turn =>
      show a.turn.requests[i]? = _
      rcases (h.turn shared).2 with ⟨_, _, heq⟩ | ⟨_, hreq⟩
      · rw [heq, hr]
      · rw [hreq, List.getElem?_map, hr]
        rfl

/-- **An open request ends with the outcome** after as many turns as are left to come. -/
theorem Steady.getElem?_play_of_open (h : a.Steady config loader) {ms : List Move} {i : ℕ}
    {r : Request} (hms : a.Uninterrupted ms) (his : ∀ m ∈ ms, m ≠ .leave ∧ m ≠ .withdraw i)
    (hr : a.requests[i]? = some r) (hopen : r.isOpen = true)
    (hk : a.turnsAhead ≤ ms.count .turn) :
    (a.play ms).requests[i]? = some (.ended (firstOutcome config loader)) := by
  induction ms generalizing a r with
  | nil =>
    have hpos := h.turnsAhead_pos
    rw [List.count_nil] at hk
    omega
  | cons m ms ih =>
    obtain ⟨hm, hms⟩ := hms
    obtain ⟨⟨hleave, hwithdraw⟩, hrest⟩ := List.forall_mem_cons.1 his
    have hnext := h.move shared hm
    have hsame (hne : m ≠ .turn) : a.turnsAhead ≤ ms.count .turn :=
      hk.trans_eq (List.count_cons_of_ne hne)
    cases m with
    | request => exact ih hnext hms hrest (getElem?_request hr) hopen (hsame (by simp))
    | withdraw j =>
      have hj : j ≠ i := fun hj => hwithdraw (by rw [hj])
      exact ih hnext hms hrest (getElem?_cancelRequest_of_ne hj hr) hopen (hsame (by simp))
    | cancel =>
      have heq : a.move .cancel = a := h.cancel_eq (hm (Or.inl rfl))
      rw [heq] at hnext hms
      rw [play_cons, heq]
      exact ih hnext hms hrest hr hopen (hsame (by simp))
    | leave => exact absurd rfl hleave
    | turn =>
      rw [List.count_cons_self] at hk
      rcases h.turnsAhead_turn shared hr hopen with hi | ⟨hi, hless⟩
      · exact hnext.getElem?_play_of_ended shared hms (fun m hm => (hrest m hm).1) hi
      · refine ih hnext hms hrest hi rfl ?_
        show a.turn.turnsAhead ≤ _
        omega

end Shared

/-! ### The main result -/

/-- The keys of the mappings can be put in order where a build depends on it: the load that decides
a build in which loads fail does not fail because of its keys, and if no load fails, the keys of the
merged registry can be put in order. -/
structure KeysOrderable (config : Config) (loader : Loader) : Prop where
  decisive : ∀ l, Load.decisive? (Load.askAll loader [] config.packages) = some l →
    ∀ entries, l.delivery.result ≠ .ok (.map entries)
  merged : Load.decisive? (Load.askAll loader [] config.packages) = none →
    ∃ keys, Registry.languages (Registry.build config.explicit
      (Load.registries (Load.askAll loader [] config.packages)) config.precedence) = .ok keys

/-- All requests share one outcome. There are an outcome, the registry or a failure of
initialization, and a number of turns, such that under every schedule in which no build is cancelled
and none is left behind by its loop:

* a request that has ended has that outcome, unless it was cancelled, and then it is published;
* once something is published, it is that outcome, and whatever happens later changes nothing but
  requests, so that no package is asked for again;
* an open request that is not cancelled itself, and whose loop is not left, has ended with that
  outcome after that many turns. -/
def SharesOutcome (config : Config) (loader : Loader) : Prop :=
  ∃ (o : Outcome) (patience : ℕ), o.IsShared ∧
    ∀ before, (initial config loader).Uninterrupted before →
      let a := (initial config loader).play before
      (∀ o', .ended o' ∈ a.requests → o' = .cancelled ∨ o' = o ∧ a.done = true) ∧
      (a.done = true → a.Published o ∧ ∀ later, (a.play later).core = a.core) ∧
      ∀ i r after, a.requests[i]? = some r → r.isOpen = true → a.Uninterrupted after →
        (∀ m ∈ after, m ≠ .leave ∧ m ≠ .withdraw i) → patience ≤ after.count .turn →
        (a.play after).requests[i]? = some (.ended o)

/-- The outcome of the first build can be shared exactly when it does not depend on keys that cannot
be put in order. -/
theorem isShared_firstOutcome_iff (ordinary : loader.IsOrdinary) :
    (firstOutcome config loader).IsShared ↔ KeysOrderable config loader := by
  unfold firstOutcome Load.verdict
  rcases hd : Load.decisive? (Load.askAll loader [] config.packages) with _ | l
  · rw [Option.bind_none]
    dsimp only
    rw [isShared_given_ok_iff]
    constructor
    · exact fun h => ⟨by simp [hd], fun _ => h⟩
    · exact fun h => h.merged hd
  · obtain ⟨hmem, hfails⟩ := Load.mem_of_decisive? hd
    obtain ⟨t, ht⟩ := Option.isSome_iff_exists.1 hfails
    -- the kind of the failure tells whether it comes from keys
    have hkind := Load.kind_of_failure? (fun _ => Load.ordinary_of_mem_askAll ordinary hmem) ht
    rw [Option.bind_some, ht]
    dsimp only [given]
    rw [Outcome.isShared_failure_iff, hkind]
    constructor
    · intro h
      refine ⟨fun l' hl' => ?_, by simp [hd]⟩
      rw [hd, Option.some.injEq] at hl'
      rwa [← hl']
    · exact fun h => h.decisive l hd

theorem sharesOutcome_of_isShared (shared : (firstOutcome config loader).IsShared) :
    SharesOutcome config loader := by
  refine ⟨firstOutcome config loader,
    Load.longest (Load.askAll loader [] config.packages) + 4, shared, fun before hbefore => ?_⟩
  have hstart : (initial config loader).Steady config loader := steady_initial
  have h := hstart.play shared hbefore
  refine ⟨fun o' ho' => h.outcome_of_ended ho', fun hd => ?_,
    fun i r after hr hopen hafter his hk => ?_⟩
  · have hkeeps := h.keeps_of_done hd
    exact ⟨hkeeps.published, hkeeps.core_play h.late⟩
  · exact h.getElem?_play_of_open shared hafter his hr hopen (h.turnsAhead_le.trans hk)

theorem uninterrupted_replicate_turn (k : ℕ) : a.Uninterrupted (List.replicate k .turn) := by
  induction k generalizing a with
  | zero => trivial
  | succ k ih => exact ⟨by simp, ih⟩

/-- The first request of all is given the outcome of the first build. -/
theorem isShared_of_sharesOutcome (h : SharesOutcome config loader) :
    (firstOutcome config loader).IsShared := by
  obtain ⟨o, _, shared, h⟩ := h
  -- one request and turns to the end of its build already decide which outcome is shared
  let begun : Assembler := { (initial config loader).ready with requests := [.waiting 0] }
  have hunder : begun.IsUnderway := ⟨rfl, rfl, rfl, .scheduled, rfl, rfl⟩
  obtain ⟨k, hk⟩ := hunder.exists_requests_play rfl
  have hplay : (initial config loader).play ([.request, .turn] ++ List.replicate k .turn) =
      begun.play (List.replicate k .turn) := rfl
  have hun : (initial config loader).Uninterrupted
      ([.request, .turn] ++ List.replicate k .turn) :=
    ⟨by simp, by simp, uninterrupted_replicate_turn k⟩
  obtain ⟨hended, _⟩ := h _ hun
  rw [hplay] at hended
  rcases hended (firstOutcome config loader) (by rw [hk]; exact List.mem_singleton_self _) with
    heq | ⟨heq, _⟩
  · exact absurd heq (given_ne_cancelled _ _ _)
  · rwa [heq]

/-- **One outcome for all requests, whatever the loader delivers.** For a loader whose failures are
ordinary ones, all requests share one outcome exactly when the keys can be put in order where a
build depends on it. -/
theorem sharesOutcome_iff (config : Config) (loader : Loader) (ordinary : loader.IsOrdinary) :
    SharesOutcome config loader ↔ KeysOrderable config loader := by
  rw [← isShared_firstOutcome_iff ordinary]
  exact ⟨isShared_of_sharesOutcome, sharesOutcome_of_isShared⟩

/-- A loader that takes three ticks for the package `slow` and none for others. The keys of its
mappings are a number and a truth value. -/
def numberLoader : Loader := fun package _ =>
  { ticks := if package = "slow" then 3 else 0
    result := .ok (.map [(.int package.length, .scalar .null), (.bool false, .scalar .null)]) }

theorem isOrdinary_numberLoader : Loader.IsOrdinary numberLoader := by
  rintro package n t ⟨⟩

/-- Keys need not be texts: numbers and truth values can be put in order. -/
theorem sharesOutcome_iff_numberLoader :
    Loader.IsOrdinary numberLoader ∧
      SharesOutcome { packages := ["slow", "quick"] } numberLoader := by
  refine ⟨isOrdinary_numberLoader,
    (sharesOutcome_iff _ numberLoader isOrdinary_numberLoader).2 ⟨?_, fun _ => ⟨_, rfl⟩⟩⟩
  rintro l ⟨⟩

/-- A loader whose mappings have a text as their key for the package `a`, a number for `b`, and both
for all others. -/
def mixedLoader : Loader := fun package _ =>
  { result := .ok (.map (
      if package = "a" then [(.str "js", .scalar .null)]
      else if package = "b" then [(.int 1, .scalar .null)]
      else [(.str "js", .scalar .null), (.int 1, .scalar .null)])) }

/-- Two packages whose keys cannot be put in order with each other: the first request fails, and the
next one is given the registry. When the keys of one package cannot be put in order, the request
fails, and nothing is published. Neither failure is one of initialization. -/
theorem mixed_keys_split_outcomes :
    Loader.IsOrdinary mixedLoader ∧
      ¬SharesOutcome { packages := ["a", "b"] } mixedLoader ∧
      (let run := (initial { packages := ["a", "b"] } mixedLoader).performAll [.get 1, .get 1]
        ∃ t r, run.1.map Sight.outcomes = [[.failure 0 t], [.registry 0 r]] ∧ t.kind = .type) ∧
      let run := (initial { packages := ["both"] } mixedLoader).performAll [.get 1]
      ∃ t, run.1.map Sight.outcomes = [[.failure 0 t]] ∧ t.kind = .type ∧ run.2.done = false := by
  refine ⟨by rintro package n t ⟨⟩, fun h => ?_, ⟨_, _, rfl, rfl⟩, ⟨_, rfl, rfl, rfl⟩⟩
  have hkind := Outcome.isShared_failure_iff.1 (isShared_of_sharesOutcome h)
  cases hkind

end CodeHighlight.Assembler
