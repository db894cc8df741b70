import CodeHighlight.Proofs.ServedRequests
import CodeHighlight.Proofs.Workload

/-!
# Documents do not matter to each other

Main statement: `documents_are_independent`. However documents in HTML are submitted to one session,
one after the other in loops of their own, together in one loop, or in any schedule in which nothing
is withdrawn or cancelled and each loop is left only when its documents are done, the result of each
document is the one that it has in a fresh session of its own, and the loader is asked for each
listed package at most once.

Two facts carry this. All requests end with the outcome of the first build (`Assembler.Served`), and
what a document comes to is a function of that outcome and the options (`Session.printed`). For
schedules `Workload.Attends` ties each document that waits to an open request.
-/

namespace CodeHighlight
open Assembler (firstOutcome initial)
open Html (Document)
open Text (Wide)

variable {stack : Stack} {config : Config} {loader : Loader}

/-! ### Documents that are submitted together -/

namespace Session
variable {s : Session}

/-- What a document in HTML comes to, given the outcome of its request. -/
def printed (stack : Stack) (c : Config) (o : Outcome) :
    Except Trace Document → Except Trace Wide
  | .error t => .error t
  | .ok d => (carriedOut stack c o.result d).2.map fun _ => (carriedOut stack c o.result d).1.print

/-- What a document in HTML comes to with the outcome of the first build. -/
def resultOf (stack : Stack) (config : Config) (loader : Loader) (source : String) :
    Except Trace Wide :=
  printed stack config (firstOutcome config loader) (Document.ofText source)

/-- Nothing is under way in the session, and all its requests have been and will be served. -/
structure IsFree (stack : Stack) (config : Config) (loader : Loader) (s : Session) : Prop where
  room : s.stack = stack
  served : s.assembler.Served config loader
  requests : s.assembler.requests = []

theorem IsFree.config_eq (h : s.IsFree stack config loader) : s.config = config :=
  congrArg Prod.fst h.served.steady.origin

theorem finish_eq (s : Session) (o : Outcome) (d : Except Trace Document) :
    ∃ ds, s.finish o.result d = (printed s.stack s.config o d, s.report ds) := by
  cases d with
  | error t => exact ⟨[], by simp [finish, printed, report]⟩
  | ok d =>
    obtain ⟨ds, hds⟩ := s.transformWith_eq o.result d
    refine ⟨ds, ?_⟩
    unfold finish printed
    dsimp only
    rw [hds]
    rcases carriedOut s.stack s.config o.result d with ⟨d', t | r⟩ <;> rfl

/-- A document in HTML comes to what the outcome of its request makes of it. -/
theorem highlightHtml_of_request {o : Outcome} (ho : s.request.1 = o.result)
    (source : String) :
    (s.highlightHtml source).1 = printed s.stack s.config o (Document.ofText source) := by
  cases hd : Document.ofText source with
  | error t => simp only [highlightHtml, parse, hd, printed]
  | ok d =>
    have hrequest : (s.parse source).2.request.1 = o.result := ho
    obtain ⟨ds, hds⟩ := (s.parse source).2.request.2.finish_eq o (.ok d)
    have hrun : (s.highlightHtml source).1 = ((s.parse source).2.request.2.finish
        (s.parse source).2.request.1 (.ok d)).1 := by
      simp only [highlightHtml, parse, hd]
    rw [hrun, hrequest, hds, config_request]
    rfl

/-- Requests with one outcome finish all documents alike. -/
theorem finishAll_eq (s : Session) (o : Outcome) (documents : List (Except Trace Document)) :
    ∃ ds, s.finishAll (List.replicate (documents.countP isRead) o) documents =
      (documents.map (printed s.stack s.config o), s.report ds) := by
  induction documents generalizing s with
  | nil => exact ⟨[], by simp [finishAll, report]⟩
  | cons d documents ih =>
    cases d with
    | error t =>
      obtain ⟨ds, hds⟩ := ih s
      refine ⟨ds, ?_⟩
      rw [List.countP_cons_of_neg (by simp [isRead]), finishAll, hds]
      rfl
    | ok d =>
      obtain ⟨ds, hds⟩ := s.finish_eq o (.ok d)
      obtain ⟨ds', hds'⟩ := ih (s.report ds)
      refine ⟨ds ++ ds', ?_⟩
      have hreport : (s.report ds).report ds' = s.report (ds ++ ds') := by simp [report]
      rw [List.countP_cons_of_pos (by rfl), List.replicate_succ, finishAll]
      dsimp only [List.head?_cons, Option.getD_some, List.tail_cons]
      rw [hds]
      dsimp only
      rw [hds', hreport]
      rfl

theorem parseAll_eq (s : Session) (sources : List String) :
    ∃ s', s.parseAll sources = (sources.map Document.ofText, s') ∧ s'.stack = s.stack ∧
      s'.assembler = s.assembler := by
  induction sources generalizing s with
  | nil => exact ⟨s, rfl, rfl, rfl⟩
  | cons source sources ih =>
    obtain ⟨s', hs', hkept⟩ := ih (s.parse source).2
    refine ⟨s', ?_, hkept⟩
    rw [parseAll]
    dsimp only
    rw [hs']
    rfl

section Orderly
variable (orderly : loader.IsOrderly)
include orderly

theorem IsFree.requestAll (h : s.IsFree stack config loader) (n : ℕ) :
    (s.requestAll n).1 = List.replicate n (firstOutcome config loader) ∧
      (s.requestAll n).2.IsFree stack config loader := by
  obtain ⟨houtcomes, hserved, hrequests⟩ := h.served.perform_get orderly h.requests n
  exact ⟨houtcomes, h.room, hserved, hrequests⟩

theorem IsFree.request (h : s.IsFree stack config loader) :
    s.request.1 = (firstOutcome config loader).result ∧ s.request.2.IsFree stack config loader := by
  obtain ⟨houtcomes, hfree⟩ := h.requestAll orderly 1
  refine ⟨?_, hfree⟩
  show ((s.requestAll 1).1.head?.getD .cancelled).result = _
  rw [houtcomes]
  rfl

/-- **Documents that are submitted together** come to what each of them comes to with the outcome of
the first build. -/
theorem IsFree.highlightTogether (h : s.IsFree stack config loader) (sources : List String) :
    (s.highlightTogether sources).1 = sources.map (resultOf stack config loader) ∧
      (s.highlightTogether sources).2.IsFree stack config loader := by
  obtain ⟨s', hparse, hstack, ha⟩ := s.parseAll_eq sources
  have h' : s'.IsFree stack config loader :=
    ⟨hstack.trans h.room, ha ▸ h.served, ha ▸ h.requests⟩
  -- there are as many requests as documents that have been read
  let n := (sources.map Document.ofText).countP isRead
  obtain ⟨houtcomes, hfree⟩ := h'.requestAll orderly n
  obtain ⟨ds, hfinish⟩ := (s'.requestAll n).2.finishAll_eq (firstOutcome config loader)
    (sources.map Document.ofText)
  unfold Session.highlightTogether
  rw [hparse]
  dsimp only
  rw [houtcomes, hfinish, hfree.config_eq, hfree.room, List.map_map]
  exact ⟨rfl, hfree.room, hfree.served, hfree.requests⟩

theorem IsFree.highlightHtml (h : s.IsFree stack config loader) (source : String) :
    (s.highlightHtml source).1 = resultOf stack config loader source ∧
      (s.highlightHtml source).2.IsFree stack config loader := by
  have h' : (s.parse source).2.IsFree stack config loader := ⟨h.room, h.served, h.requests⟩
  refine ⟨?_, ?_⟩
  · rw [highlightHtml_of_request (h.request orderly).1, h.config_eq, h.room, resultOf]
  · cases hd : Document.ofText source with
    | error t =>
      -- a document that cannot be read makes no request
      simpa only [Session.highlightHtml, parse, hd] using h'
    | ok d =>
      obtain ⟨hresult, hfree⟩ := h'.request orderly
      obtain ⟨ds, hfinish⟩ :=
        (s.parse source).2.request.2.finish_eq (firstOutcome config loader) (.ok d)
      have hrun : s.highlightHtml source =
          (s.parse source).2.request.2.finish (s.parse source).2.request.1 (.ok d) := by
        simp only [Session.highlightHtml, parse, hd]
      rw [hrun, hresult, hfinish]
      exact ⟨hfree.room, hfree.served, hfree.requests⟩

end Orderly
end Session

/-- A way to submit documents in HTML in a loop of its own: one alone, or several together. -/
inductive Submission where
  | alone (source : String)
  | together (sources : List String)

/-- The documents of a submission. -/
def Submission.sources : Submission → List String
  | .alone source => [source]
  | .together sources => sources

namespace Session
variable {s : Session}

/-- The results of the documents of a submission. -/
def submit (s : Session) : Submission → List (Except Trace Wide) × Session
  | .alone source =>
    let (result, s) := s.highlightHtml source
    ([result], s)
  | .together sources => s.highlightTogether sources

/-- The results of the documents of several submissions, one after the other. -/
def submitAll (s : Session) : List Submission → List (Except Trace Wide) × Session
  | [] => ([], s)
  | b :: rest =>
    let (results, s) := s.submit b
    let (others, s) := s.submitAll rest
    (results ++ others, s)

theorem IsFree.submit (orderly : loader.IsOrderly) (h : s.IsFree stack config loader)
    (b : Submission) :
    (s.submit b).1 = b.sources.map (resultOf stack config loader) ∧
      (s.submit b).2.IsFree stack config loader := by
  cases b with
  | alone source =>
    obtain ⟨hresult, hfree⟩ := h.highlightHtml orderly source
    exact ⟨congrArg (fun result => [result]) hresult, hfree⟩
  | together sources => exact h.highlightTogether orderly sources

/-- **Submissions one after the other** give each document what it comes to with the outcome of the
first build. -/
theorem IsFree.submitAll (orderly : loader.IsOrderly) (h : s.IsFree stack config loader)
    (submissions : List Submission) :
    (s.submitAll submissions).1 =
        (submissions.flatMap Submission.sources).map (resultOf stack config loader) ∧
      (s.submitAll submissions).2.IsFree stack config loader := by
  induction submissions generalizing s with
  | nil => exact ⟨rfl, h⟩
  | cons b submissions ih =>
    obtain ⟨hresults, hfree⟩ := h.submit orderly b
    obtain ⟨hothers, hlast⟩ := ih hfree
    refine ⟨?_, hlast⟩
    rw [List.flatMap_cons, List.map_append, ← hresults, ← hothers]
    rfl

end Session

/-! ### Patient schedules -/

namespace Job

/-- The result of the document of a job, if it is there. -/
def html? : Job → Option (Except Trace Wide)
  | .unread t => some (.error t)
  | .waiting _ _ => none
  | .finished _ _ d' result => some (result.map fun _ => d'.print)

theorem html?_eq_none_iff {j : Job} : j.html? = none ↔ ∃ d i, j = .waiting d i := by
  cases j <;> simp [html?]

theorem abandon_eq_self {j : Job} (h : j.html? ≠ none) : j.abandon = j := by
  cases j with
  | waiting d i => exact absurd rfl h
  | _ => rfl

/-- A job waits for a request with the given index. -/
def WaitsFor (i : ℕ) : Job → Prop
  | .waiting _ n => n = i
  | _ => False

theorem html?_eq_none_of_waitsFor {j : Job} {i : ℕ} (h : j.WaitsFor i) : j.html? = none := by
  cases j with
  | waiting d n => rfl
  | _ => exact h.elim

/-- A job that has finished was given this outcome. -/
def HasOutcome (o : Outcome) : Job → Prop
  | .finished o' _ _ _ => o' = o
  | _ => True

theorem waitsFor_after {c : Config} {rs : List Request} {j : Job} {i : ℕ} :
    (j.after stack c rs).WaitsFor i ↔ j.WaitsFor i ∧ (rs[i]?).bind (·.outcome?) = none := by
  cases j with
  | waiting d n =>
    rcases ho : (rs[n]?).bind (·.outcome?) with _ | o
    · rw [after_waiting_of_none ho]
      constructor
      · rintro rfl
        exact ⟨rfl, ho⟩
      · exact And.left
    · rw [after_waiting_of_some ho]
      refine iff_of_false id ?_
      rintro ⟨rfl, hnone⟩
      rw [ho] at hnone
      cases hnone
  | _ => exact ⟨False.elim, And.left⟩

theorem hasOutcome_after {c : Config} {rs : List Request} {j : Job} {o : Outcome}
    (hrs : ∀ o', .ended o' ∈ rs → o' = o) (hj : j.HasOutcome o) :
    (j.after stack c rs).HasOutcome o := by
  cases j with
  | waiting d n =>
    rcases ho : (rs[n]?).bind (·.outcome?) with _ | o'
    · rw [after_waiting_of_none ho]
      trivial
    · rw [after_waiting_of_some ho]
      obtain ⟨r, hr, hro⟩ := Option.bind_eq_some_iff.1 ho
      cases r with
      | ended q =>
        cases hro
        exact hrs _ (List.mem_of_getElem? hr)
      | _ => cases hro
  | _ => exact hj

/-- A job has no result yet, or the one that its document comes to with the outcome. -/
theorem html?_eq {c : Config} {o : Outcome} {j : Job} (hcarried : j.IsCarriedOut stack c)
    (ho : j.HasOutcome o) :
    j.html? = none ∨ j.html? = some (Session.printed stack c o j.submitted) := by
  cases j with
  | unread t => exact Or.inr rfl
  | waiting d i => exact Or.inl rfl
  | finished o' d d' result =>
    cases ho
    have hrun : Session.carriedOut stack c o.result d = (d', result) := hcarried
    refine Or.inr ?_
    simp only [html?, submitted, Session.printed, hrun]

end Job

namespace Workload
variable {k : Workload}

/-- The document in HTML that a move submits, if any. -/
def Move.source? : Move → Option String
  | .html source => some source
  | _ => none

/-- All documents are in HTML, nothing is withdrawn or cancelled, and a loop is left only when its
documents are done. -/
def IsPatient : Workload → List Move → Prop
  | _, [] => True
  | k, m :: ms =>
    (match m with
      | .html _ | .turn => True
      | .leave => ∀ j ∈ k.current, j.html? ≠ none
      | .document _ | .withdraw _ | .cancel => False) ∧ IsPatient (k.move m) ms

/-- The jobs of the current loop that wait are those whose requests are open, the others have
finished with the outcome of the first build, and none waits in a loop that was left. -/
structure Attends (config : Config) (loader : Loader) (k : Workload) : Prop where
  served : k.session.assembler.Served config loader
  waiting : ∀ i, (∃ j ∈ k.current, j.WaitsFor i) ↔ k.session.assembler.OpenAt i
  outcomes : ∀ j ∈ k.jobs, j.HasOutcome (firstOutcome config loader)
  earlier : ∀ j ∈ k.earlier, j.html? ≠ none

theorem jobs_eq (k : Workload) : k.jobs = k.earlier ++ k.current := rfl

theorem attends_of_initial {s : Session} (orderly : loader.IsOrderly)
    (fresh : s.assembler = initial config loader) :
    (⟨s, [], []⟩ : Workload).Attends config loader := by
  refine ⟨fresh ▸ Assembler.served_initial orderly, fun i => ?_, by rintro _ ⟨⟩, by rintro _ ⟨⟩⟩
  rw [fresh]
  simp [Assembler.OpenAt, initial]

theorem Attends.unread (h : k.Attends config loader) {s : Session}
    (hs : s.assembler = k.session.assembler) (t : Trace) :
    Attends config loader { k with session := s, current := k.current ++ [.unread t] } := by
  refine ⟨hs ▸ h.served, fun i => ?_, ?_, h.earlier⟩
  · show (∃ j ∈ k.current ++ [.unread t], _) ↔ s.assembler.OpenAt i
    rw [hs, ← h.waiting i]
    simp [Job.WaitsFor]
  · show ∀ j ∈ k.earlier ++ (k.current ++ [.unread t]), _
    rw [← List.append_assoc, List.forall_mem_append]
    exact ⟨h.outcomes, by simp [Job.HasOutcome]⟩

theorem Attends.await (orderly : loader.IsOrderly) (h : k.Attends config loader) (d : Document) :
    (k.await d).Attends config loader := by
  refine ⟨h.served.request orderly, fun i => ?_, ?_, h.earlier⟩
  · show (∃ j ∈ k.current ++ [.waiting d k.session.assembler.requests.length], _) ↔
      k.session.assembler.request.OpenAt i
    rw [Assembler.openAt_request, ← h.waiting i]
    simp [or_and_right, exists_or, Job.WaitsFor, eq_comm]
  · show ∀ j ∈ k.earlier ++ (k.current ++ [_]), _
    rw [← List.append_assoc, List.forall_mem_append]
    exact ⟨h.outcomes, by simp [Job.HasOutcome]⟩

/-- **A turn** finishes the jobs whose requests end, with the outcome of the first build. -/
theorem Attends.turn (orderly : loader.IsOrderly) (h : k.Attends config loader) :
    (k.onward k.session.assembler.turn).Attends config loader := by
  let a := k.session.assembler.turn
  have hserved : a.Served config loader := (h.served.turn orderly).1
  obtain ⟨ds, hds⟩ := onward_eq k a
  show (k.onward a).Attends config loader
  rw [hds]
  refine ⟨hserved, fun i => ?_, ?_, h.earlier⟩
  · show (∃ j ∈ k.current.map (Job.after k.session.stack a.config a.requests), _) ↔ a.OpenAt i
    rw [show a = k.session.assembler.turn from rfl, h.served.openAt_turn orderly, ← h.waiting i]
    simp [Job.waitsFor_after, ← and_assoc]
  · show ∀ j ∈ k.earlier ++ k.current.map (Job.after k.session.stack a.config a.requests), _
    rw [List.forall_mem_append]
    refine ⟨fun j hj => h.outcomes j (List.mem_append_left _ hj), fun j hj => ?_⟩
    obtain ⟨q, hq, rfl⟩ := List.mem_map.1 hj
    exact Job.hasOutcome_after (fun o ho => (hserved.outcome_eq ho).1)
      (h.outcomes q (List.mem_append_right _ hq))

theorem Attends.leave (orderly : loader.IsOrderly) (h : k.Attends config loader)
    (hdone : ∀ j ∈ k.current, j.html? ≠ none) : (k.move .leave).Attends config loader := by
  -- an open request would have a job that waits for it
  have hidle : k.session.assembler.isIdle = true := by
    rw [Assembler.isIdle_iff]
    intro r hr
    obtain ⟨i, hi⟩ := List.getElem?_of_mem hr
    by_contra hopen
    obtain ⟨j, hj, hwaits⟩ := (h.waiting i).2 ⟨r, hi, by simpa using hopen⟩
    exact hdone j hj (Job.html?_eq_none_of_waitsFor hwaits)
  have hsame : k.current.map Job.abandon = k.current := by
    refine (List.map_congr_left fun j hj => ?_).trans (List.map_id _)
    exact Job.abandon_eq_self (hdone j hj)
  have hjobs : (k.move .leave).earlier = k.jobs := by
    show k.earlier ++ k.current.map Job.abandon = _
    rw [hsame]
    rfl
  refine ⟨h.served.leaveLoop orderly hidle, fun i => ?_, ?_, ?_⟩
  · show (∃ j ∈ [], _) ↔ k.session.assembler.leaveLoop.OpenAt i
    simp [Assembler.OpenAt, Assembler.leaveLoop]
  · rw [jobs, hjobs]
    show ∀ j ∈ k.jobs ++ [], _
    rw [List.append_nil]
    exact h.outcomes
  · rw [hjobs, jobs_eq, List.forall_mem_append]
    exact ⟨h.earlier, hdone⟩

/-- **Every moment of a patient schedule**: the jobs that wait are those whose requests are open. -/
theorem Attends.play (orderly : loader.IsOrderly) (h : k.Attends config loader) {ms : List Move}
    (patient : k.IsPatient ms) : (k.play ms).Attends config loader := by
  induction ms generalizing k with
  | nil => exact h
  | cons m ms ih =>
    obtain ⟨hm, hms⟩ := patient
    refine ih ?_ hms
    cases m with
    | html source =>
      cases hd : Document.ofText source with
      | error t =>
        rw [move_html_of_error hd]
        exact h.unread (s := (k.session.parse source).2) rfl t
      | ok d =>
        rw [move_html_of_ok hd]
        have hparsed : Attends config loader { k with session := (k.session.parse source).2 } :=
          ⟨h.served, h.waiting, h.outcomes, h.earlier⟩
        exact hparsed.await orderly d
    | turn => exact h.turn orderly
    | leave => exact h.leave orderly hm
    | _ => exact hm.elim

theorem isPatient_append {ms ms' : List Move} :
    k.IsPatient (ms ++ ms') ↔ k.IsPatient ms ∧ (k.play ms).IsPatient ms' := by
  induction ms generalizing k with
  | nil => simp [IsPatient, Workload.play]
  | cons m ms ih =>
    show (_ ∧ (k.move m).IsPatient (ms ++ ms')) ↔ (_ ∧ (k.move m).IsPatient ms) ∧ _
    rw [ih, and_assoc]
    rfl

theorem isPatient_turns (n : ℕ) : k.IsPatient (List.replicate n .turn) := by
  induction n generalizing k with
  | zero => trivial
  | succ n ih => exact ⟨trivial, ih⟩

theorem submits_of_isPatient {ms : List Move} (patient : k.IsPatient ms) :
    ms.filterMap Move.submits? = (ms.filterMap Move.source?).map Document.ofText := by
  induction ms generalizing k with
  | nil => rfl
  | cons m ms ih =>
    obtain ⟨hm, hms⟩ := patient
    cases m with
    | html source => exact congrArg (Document.ofText source :: ·) (ih hms)
    | turn | leave => exact ih hms
    | _ => exact hm.elim

/-- Turns of a workload are turns of its assembler. -/
theorem assembler_play_turns (n : ℕ) :
    (k.play (List.replicate n .turn)).session.assembler =
      k.session.assembler.play (List.replicate n .turn) := by
  induction n generalizing k with
  | zero => rfl
  | succ n ih =>
    obtain ⟨ds, hds⟩ := onward_eq k k.session.assembler.turn
    have hturn : (k.move .turn).session.assembler = k.session.assembler.turn := by
      show (k.onward k.session.assembler.turn).session.assembler = _
      rw [hds]
      rfl
    show ((k.move .turn).play (List.replicate n .turn)).session.assembler = _
    rw [ih, hturn]
    rfl

/-- After as many turns as the first build can take, no job waits. -/
theorem Attends.html?_play_turns (orderly : loader.IsOrderly) (h : k.Attends config loader) {n : ℕ}
    (hn : Load.longest (Load.askAll loader [] config.packages) + 4 ≤ n) :
    ∀ j ∈ (k.play (List.replicate n .turn)).jobs, j.html? ≠ none := by
  have hlater := h.play orderly (isPatient_turns n)
  have hidle := h.served.isIdle_play_turns orderly (h.served.steady.turnsAhead_le.trans hn)
  rw [← assembler_play_turns] at hidle
  rw [jobs_eq, List.forall_mem_append]
  refine ⟨hlater.earlier, fun j hj hnone => ?_⟩
  obtain ⟨d, i, rfl⟩ := Job.html?_eq_none_iff.1 hnone
  obtain ⟨r, hr, hopen⟩ := (hlater.waiting i).1 ⟨_, hj, rfl⟩
  rw [Assembler.isIdle_iff.1 hidle r (List.mem_of_getElem? hr)] at hopen
  cases hopen

end Workload

/-! ### The main result -/

/-- Two lists with the same values, element by element. -/
theorem map_eq_map_iff_forall₂ {α β γ : Type} {f : α → γ} {g : β → γ} {xs : List α} {ys : List β} :
    xs.map f = ys.map g ↔ List.Forall₂ (fun x y => f x = g y) xs ys := by
  rw [← List.forall₂_eq_eq_eq, List.forall₂_map_left_iff, List.forall₂_map_right_iff]

/-- Under a patient schedule each document is without a result, or it has the one that it comes to
with the outcome of the first build. -/
theorem Workload.html?_play {s : Session} (orderly : loader.IsOrderly)
    (fresh : s.assembler = initial config loader) {ms : List Workload.Move}
    (patient : (⟨s, [], []⟩ : Workload).IsPatient ms) :
    List.Forall₂ (fun j source =>
        j.html? = none ∨ j.html? = some (Session.resultOf s.stack config loader source))
      ((⟨s, [], []⟩ : Workload).play ms).jobs (ms.filterMap Workload.Move.source?) := by
  have hattends := (Workload.attends_of_initial orderly fresh).play orderly patient
  obtain ⟨hsubmitted, hcarried⟩ := Workload.play_spec (k := ⟨s, [], []⟩) ms (by rintro _ ⟨⟩)
  rw [Workload.submits_of_isPatient patient] at hsubmitted
  have hconfig : s.config = config := congrArg Assembler.config fresh
  -- the jobs are the documents that were submitted, and each of them was carried out
  have hpairs := (List.forall₂_and_left _ _).2
    ⟨fun j hj => Job.html?_eq (hcarried j hj) (hattends.outcomes j hj),
      map_eq_map_iff_forall₂.1 hsubmitted⟩
  refine hpairs.imp fun j source h => ?_
  rw [Session.resultOf, ← h.2]
  exact hconfig ▸ h.1

/-- **Documents are independent.** A fresh session gives each document a result of its own. However
documents are submitted to one such session, they have these results, and the loader is asked for
nothing but all listed packages, once:

* in loops of their own, each with one document or with several ones that are submitted together;
* under any patient schedule: a result that is there is that one, results are there when a loop is
  left, and all of them are there after a number of turns that depends on the packages only. -/
theorem documents_are_independent (config : Config) (loader : Loader) (orderly : loader.IsOrderly)
    (s : Session) (fresh : s.assembler = initial config loader) :
    let alone := fun source => (s.highlightHtml source).1
    let asksOnce := fun s : Session =>
      s.assembler.asked = [] ∨ s.assembler.asked = config.packages
    (∀ submissions : List Submission,
      (s.submitAll submissions).1 = (submissions.flatMap Submission.sources).map alone ∧
      asksOnce (s.submitAll submissions).2) ∧
    ∃ patience, ∀ ms, (⟨s, [], []⟩ : Workload).IsPatient ms →
      let k := (⟨s, [], []⟩ : Workload).play ms
      let sources := ms.filterMap Workload.Move.source?
      List.Forall₂ (fun j source => j.html? = none ∨ j.html? = some (alone source)) k.jobs sources ∧
      (∀ j ∈ k.earlier, j.html? ≠ none) ∧
      asksOnce k.session ∧
      ∀ n, patience ≤ n →
        (k.play (List.replicate n .turn)).jobs.map Job.html? = sources.map fun source =>
          some (alone source) := by
  intro alone asksOnce
  have hfree : s.IsFree s.stack config loader :=
    ⟨rfl, fresh ▸ Assembler.served_initial orderly, by rw [fresh]; rfl⟩
  have halone : alone = Session.resultOf s.stack config loader :=
    funext fun source => (hfree.highlightHtml orderly source).1
  rw [halone]
  constructor
  · intro submissions
    obtain ⟨hresults, hlast⟩ := hfree.submitAll orderly submissions
    exact ⟨hresults, hlast.served.trail.asked_eq orderly⟩
  refine ⟨Load.longest (Load.askAll loader [] config.packages) + 4, fun ms patient => ?_⟩
  intro k sources
  have hattends : k.Attends config loader :=
    (Workload.attends_of_initial orderly fresh).play orderly patient
  refine ⟨Workload.html?_play orderly fresh patient, hattends.earlier,
    hattends.served.trail.asked_eq orderly, fun n hn => ?_⟩
  -- the turns belong to a patient schedule too, and after them no job waits
  have hdone := hattends.html?_play_turns orderly hn
  have hlater := Workload.html?_play orderly fresh
    (Workload.isPatient_append.2 ⟨patient, Workload.isPatient_turns n⟩)
  have hsources : (ms ++ List.replicate n Workload.Move.turn).filterMap Workload.Move.source? =
      sources := by
    simp [List.filterMap_append, Workload.Move.source?, sources]
  rw [Workload.play_append, hsources] at hlater
  exact map_eq_map_iff_forall₂.2 (((List.forall₂_and_left _ _).2 ⟨hdone, hlater⟩).imp
    fun j source h => h.2.resolve_left h.1)

/-- A session with two packages, of which one takes longer. -/
def slowSession : Session where
  assembler := initial { packages := ["slow", "quick"] } slowLoader
  stack := .usual
  extensions := []

/-- Two documents that are submitted together behind another one, and a document that is submitted
while packages are loading for another one. -/
theorem documents_are_independent_slowSession :
    Loader.IsOrderly slowLoader ∧
      slowSession.assembler = initial { packages := ["slow", "quick"] } slowLoader ∧
      (slowSession.submitAll [.alone "a", .together ["b", "c"]]).1 =
        [.ok ("a" : String), .ok ("b" : String), .ok ("c" : String)] ∧
      ∃ n, ((⟨slowSession, [], []⟩ : Workload).play
        ([.html "a", .turn, .html "b"] ++ List.replicate n .turn)).jobs.map Job.html? =
          [some (.ok ("a" : String)), some (.ok ("b" : String))] := by
  have ha : (slowSession.highlightHtml "a").1 = .ok ("a" : String) := by cbv
  have hb : (slowSession.highlightHtml "b").1 = .ok ("b" : String) := by cbv
  have hc : (slowSession.highlightHtml "c").1 = .ok ("c" : String) := by cbv
  obtain ⟨hsubmissions, patience, hschedules⟩ :=
    documents_are_independent _ slowLoader isOrderly_slowLoader slowSession rfl
  obtain ⟨_, _, _, hdone⟩ := hschedules [.html "a", .turn, .html "b"]
    ⟨trivial, trivial, trivial, trivial⟩
  refine ⟨isOrderly_slowLoader, rfl, ?_, patience, ?_⟩
  · rw [(hsubmissions _).1]
    show [(slowSession.highlightHtml "a").1, (slowSession.highlightHtml "b").1,
      (slowSession.highlightHtml "c").1] = _
    rw [ha, hb, hc]
  · rw [Workload.play_append, hdone patience le_rfl]
    show [some (slowSession.highlightHtml "a").1, some (slowSession.highlightHtml "b").1] = _
    rw [ha, hb]

end CodeHighlight
