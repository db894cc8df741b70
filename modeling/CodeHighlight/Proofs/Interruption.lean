import CodeHighlight.Proofs.Permanence
import CodeHighlight.Proofs.Resumption
import CodeHighlight.Proofs.SingleFlight

/-!
# Interrupted builds

Main statement: `interruption_leaves_no_trace`. A build that is interrupted, because it is cancelled
or because its loop is left or closed, publishes nothing, and what follows is what follows in a new
assembler whose loader delivers what is still to come. A build that has a failure to publish
although it is stopped is the exception (`interrupted_builds_publish`).

The assembler that is left is a new one with a past (`Invariant.forgetLeft_of_interrupted`), so that
all it does later is told by an assembler without that past (`Resumes`).
-/

namespace CodeHighlight.Assembler
variable {p : Past} {loader : Loader} {a : Assembler}

/-! ### Interruptions -/

/-- What will lie behind an assembler that starts over. -/
def past (a : Assembler) : Past := ⟨a.builds, a.asked, a.log⟩

/-- An assembler at its start, with some requests. -/
def startingWith (config : Config) (loader : Loader) (rs : List Request) : Assembler :=
  { initial config loader with requests := rs }

/-- The build under way is interrupted: its loop is closed, or it is cancelled or its loop is left
when it has no failure to publish any more. -/
def Interrupted (a b : Assembler) : Prop :=
  ∃ n s, a.task = .running n s ∧
    (b = a.closeLoop ∨ s.late? = none ∧ (b = a.cancel ∨ b = a.leaveLoop))

/-- A build that is interrupted is left behind with its loop, or it is cancelled. -/
theorem eq_of_interrupted {b : Assembler} (hb : a.Interrupted b) :
    ∃ n s, a.task = .running n s ∧
      (b = { a with requests := [], late := none, task := .abandoned } ∨
        b = ({ a with task := .none } : Assembler).answerAll n .cancelled) := by
  obtain ⟨n, s, ht, rfl | ⟨hs, rfl | rfl⟩⟩ := hb
  · exact ⟨n, s, ht, Or.inl (closeLoop_of_running ht)⟩
  · exact ⟨n, s, ht, Or.inr (cancel_of_running ht hs)⟩
  · exact ⟨n, s, ht, Or.inl (leaveLoop_of_running ht hs)⟩

/-- A request in the loop of an interrupted build has not begun, or it was cancelled. -/
theorem Invariant.mem_requests_of_interrupted (h : a.Invariant) {b : Assembler}
    (hb : a.Interrupted b) {r : Request} (hr : r ∈ b.requests) :
    r = .scheduled ∨ r = .ended .cancelled := by
  obtain ⟨n, s, ht, rfl | rfl⟩ := eq_of_interrupted hb
  · cases hr
  · rcases mem_answerAll hr with rfl | ⟨hr, hn⟩
    · exact Or.inr rfl
    · have ha := h.accounts_of_running ht hr hn (initial a.config a.loader)
      cases r with
      | scheduled => exact Or.inl rfl
      | waiting m => rcases ha with ⟨_, hs'⟩ | ⟨_, hl⟩ <;> cases ‹_›
      | ended o =>
        rcases ha with rfl | ho
        · exact Or.inr rfl
        · cases ho.done

theorem map_request_of_interrupted {p : Past} {rs : List Request}
    (h : ∀ r ∈ rs, r = .scheduled ∨ r = .ended .cancelled) : rs.map p.request = rs := by
  refine (List.map_congr_left fun r hr => ?_).trans (List.map_id rs)
  rcases h r hr with rfl | rfl <;> rfl

/-- **Nothing is left of an interrupted build** but the past: apart from the memory that a loop was
left, the assembler is a new one. -/
theorem Invariant.forgetLeft_of_interrupted (h : a.Invariant) {b : Assembler}
    (hb : a.Interrupted b) :
    b.forgetLeft =
      (startingWith a.config (a.loader.after a.asked) b.requests).after a.past a.loader := by
  have hmap := map_request_of_interrupted (p := a.past) fun r hr =>
    h.mem_requests_of_interrupted hb hr
  obtain ⟨n, s, ht, hb⟩ := eq_of_interrupted hb
  obtain ⟨hr, he⟩ := not_done_iff.1 (not_done_of_running h.coherent ht)
  have hl := late_eq_none_of_running h.coherent ht
  rcases hb with rfl | rfl
  · rw [forgetLeft_of_abandoned rfl]
    simp [startingWith, initial, after, past, Past.task, hr, he]
  · rw [forgetLeft_eq_self (by simp [answerAll])]
    unfold after startingWith
    rw [hmap]
    simp [answerAll, initial, past, Past.task, hr, he, hl]

/-- What a host can see of an assembler with a past, told by one that knows nothing of it. -/
structure Resumes (p : Past) (a f : Assembler) : Prop where
  registry : a.registry = f.registry.map p.numbered
  error : a.error = f.error.map p.numbered
  requests : a.requests = f.requests.map p.request
  asked : a.asked = p.asked ++ f.asked
  log : a.log = p.log ++ f.log

theorem resumes_of_forgetLeft (h : a.forgetLeft = (f.after p loader).forgetLeft) :
    Resumes p a f where
  registry := (congrArg Assembler.registry h :)
  error := (congrArg Assembler.error h :)
  requests := (congrArg Assembler.requests h :)
  asked := (congrArg Assembler.asked h :)
  log := (congrArg Assembler.log h :)

/-- What follows an interruption is what follows in a new assembler. -/
theorem Invariant.resumes_of_interrupted (h : a.Invariant) {b : Assembler} (hb : a.Interrupted b)
    (later : List Incident) :
    Resumes a.past (b.meetAll later)
      ((startingWith a.config (a.loader.after a.asked) b.requests).meetAll later) := by
  have hforget : (b.meetAll later).forgetLeft =
      (((startingWith a.config (a.loader.after a.asked) b.requests).meetAll later).after a.past
        a.loader).forgetLeft := by
    rw [forgetLeft_meetAll, h.forgetLeft_of_interrupted hb, meetAll_after rfl]
  exact resumes_of_forgetLeft hforget

/-! ### The next build -/

section Next
variable {config : Config} {rs : List Request}

/-- A new assembler whose requests have not begun or were cancelled. -/
theorem trail_startingWith (orderly : loader.IsOrderly)
    (hrs : ∀ r ∈ rs, r = .scheduled ∨ r = .ended .cancelled) :
    (startingWith config loader rs).Trail config loader := by
  refine ⟨⟨(invariant_initial orderly).coherent.withRequests rs, fun r hr => ?_⟩, rfl, Or.inl rfl⟩
  rcases hrs r hr with rfl | rfl
  · trivial
  · exact Or.inl rfl

theorem undisturbed_of_forall {ms : List Move} (h : ∀ m ∈ ms, m ≠ .cancel ∧ m ≠ .leave) :
    a.Undisturbed ms := by
  induction ms generalizing a with
  | nil => trivial
  | cons m ms ih =>
    obtain ⟨⟨hc, hl⟩, hms⟩ := List.forall_mem_cons.1 h
    exact ⟨hc, fun heq => absurd heq hl, ih hms⟩

/-- A request to a new assembler makes it ask for all listed packages and publish something, unless
the build is interrupted in turn. -/
theorem exists_patience_startingWith (config : Config) (orderly : loader.IsOrderly) :
    ∃ patience, ∀ rs : List Request, (∀ r ∈ rs, r = .scheduled ∨ r = .ended .cancelled) →
      ∀ later : List Move, (∀ m ∈ later, m ≠ .cancel ∧ m ≠ .leave) →
        patience ≤ later.count .turn →
        let f := (startingWith config loader rs).play (.request :: .turn :: later)
        f.asked = config.packages ∧ f.done = true := by
  obtain ⟨n, hdone, hfix⟩ := exists_underway_fixed config orderly
  obtain ⟨o, ho⟩ := exists_published hdone
  refine ⟨n, fun rs hrs later hlater hturns => ?_⟩
  have h : (startingWith config loader rs).Trail config loader := trail_startingWith orderly hrs
  have hrequest := h.move orderly (m := .request) (by simp) (by simp)
  have hturn := hrequest.move orderly (m := .turn) (by simp) (by simp)
  have hcore : ((startingWith config loader rs).request.turn).core = underway config loader 0 := by
    have hs : (startingWith config loader rs).request.hasScheduled = true :=
      hasScheduled_iff.2 (List.mem_append_right _ (List.mem_singleton.2 rfl))
    exact (core_turn_of_initial (a := (startingWith config loader rs).request) rfl rfl).trans
      (if_pos hs)
  have hund : (startingWith config loader rs).request.turn.Undisturbed later :=
    undisturbed_of_forall hlater
  have hover := (hturn.play orderly hund).over orderly hfix ho
    (hturn.core_play orderly hcore hund) (by omega)
  exact ⟨hover.1, hover.2.1.done⟩

end Next

/-- What is published after an interruption is published by a new assembler. -/
theorem Resumes.done_eq {f : Assembler} (h : Resumes p a f) : a.done = f.done := by
  simp [done, h.registry, h.error]

theorem getElem?_beginRequests {i m : ℕ} (h : a.requests[i]? = some (.waiting m)) :
    a.beginRequests.requests[i]? = some (.waiting m) := by
  by_cases hs : a.hasScheduled = true
  · rw [beginRequests_eq hs]
    simp [h, beginAs]
  · rwa [beginRequests_of_not_hasScheduled (by simpa using hs)]

/-- A build that still has a failure to publish is the exception. When it is cancelled, the failure
is published in the next turn, and the requests that wait for the build are given it. -/
theorem turn_cancel_of_late? (h : a.Invariant) {n : ℕ} {s : Stage} {t : Trace}
    (ht : a.task = .running n s) (hs : s.late? = some t) :
    a.cancel.turn.error = some (n, t) ∧ ∀ i : ℕ, a.requests[i]? = some (.waiting n) →
      a.cancel.turn.requests[i]? = some (.ended (.failure n t)) := by
  have hk : t.kind = .initialization := h.coherent.kind_of_late? ht hs
  rw [cancel_of_late? ht hs, turn_of_not_running (by simp)]
  have hlate : ({ a with task := .none, late := some (n, t) } : Assembler).beginRequests.late =
      some (n, t) := late_beginRequests
  unfold publishLate
  rw [hlate]
  refine ⟨by simp [hk, answerAll], fun i hi => ?_⟩
  have hwait := getElem?_beginRequests (a := { a with task := .none, late := some (n, t) }) hi
  simp [hk, answerAll, hwait]

/-- When its loop is left, the failure is published at once. -/
theorem error_leaveLoop_of_late? (h : a.Invariant) {n : ℕ} {s : Stage} {t : Trace}
    (ht : a.task = .running n s) (hs : s.late? = some t) : a.leaveLoop.error = some (n, t) := by
  have hk : t.kind = .initialization := h.coherent.kind_of_late? ht hs
  rw [leaveLoop_of_late? ht hs]
  simp [publish, hk, answerAll]

/-! ### The main result -/

/-- A loader that answers with a failure when it is stopped. -/
def stubbornLoader : Loader := fun package _ =>
  { ticks := 5
    result := .ok (.map [(.str package, .scalar .null)])
    answer := some ⟨.plain .runtime "", rfl⟩ }

/-- The next request after a step that interrupts the build of two packages. -/
def interruptedBy (loader : Loader) (s : HostStep) : List Sight × Assembler :=
  (initial { packages := ["first", "other"] } loader).performAll [s, .get 1]

end CodeHighlight.Assembler
