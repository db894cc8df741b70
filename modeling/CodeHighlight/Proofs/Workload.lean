import CodeHighlight.Proofs.FailureContainment
import CodeHighlight.Proofs.HostSteps
import CodeHighlight.Proofs.PartialRuns
import CodeHighlight.Session

/-!
# Documents under schedules

A session with the documents that were submitted to it is a `Workload`. A document in HTML is read
when it is submitted; a document that has been read waits for a request of its own, and it is
transformed at the moment at which that request has ended. In between anything can happen: other
documents are submitted, the loop turns, requests are withdrawn, the build is cancelled, the loop is
left.

Main statement: `documents_change_block_by_block`. Whatever the schedule is, a document is left as
it was when its request ends without a registry; otherwise the outermost blocks up to the first one
whose failure escapes are each replaced as a whole, and that one and those behind it are untouched
(`Session.ChangesByBlocks`). What a move does to the jobs is said by `Workload.Moves`, what a
schedule does by induction over its moves (`Workload.play_spec`).
-/

namespace CodeHighlight
open Html (Document)

/-! ### Carrying out a document -/

namespace Session

/-- What becomes of a document, and of its transformation, once the result of its request is
there. -/
def carriedOut (stack : Stack) (c : Config) (registry : Except Trace Registry) (d : Document) :
    Document × Except Trace Report :=
  match registry with
  | .error t => (d, .error t)
  | .ok r =>
    match Block.transform stack c r d with
    | (d', _, some t) => (d', .error t)
    | (d', seen, none) => (d', .ok seen)

variable {s : Session}

/-- A session transforms a document by its stack and its options only, and it only adds to its
diagnostics. -/
theorem transformWith_eq (registry : Except Trace Registry) (d : Document) :
    ∃ ds, s.transformWith registry d =
      ((carriedOut s.stack s.config registry d).1, (carriedOut s.stack s.config registry d).2,
        s.report ds) := by
  unfold transformWith carriedOut
  cases registry with
  | error t => exact ⟨[], by simp [report]⟩
  | ok r =>
    dsimp only
    rcases Block.transform s.stack s.config r d with ⟨d', seen, _ | t⟩
    · exact ⟨_, rfl⟩
    · exact ⟨_, rfl⟩

/-- How a document changes once the result of its request is there: without a registry it does not
change, and with a registry it comes as far as its blocks allow. -/
def ChangesByBlocks (stack : Stack) (c : Config) (registry : Except Trace Registry)
    (d d' : Document) (result : Except Trace Report) : Prop :=
  match registry with
  | .error t => d' = d ∧ result = .error t
  | .ok r => Block.Progress stack c r d d' result

theorem changesByBlocks_carriedOut (stack : Stack) (c : Config) (registry : Except Trace Registry)
    {d : Document} (hd : d.IsNumbered) :
    ChangesByBlocks stack c registry d (carriedOut stack c registry d).1
      (carriedOut stack c registry d).2 := by
  cases registry with
  | error t => exact ⟨rfl, rfl⟩
  | ok r =>
    have hprogress := Block.progress_of_transform stack c r hd
    unfold ChangesByBlocks carriedOut
    dsimp only
    rcases ht : Block.transform stack c r d with ⟨d', report, _ | t⟩
    · rw [ht] at hprogress
      exact hprogress
    · rw [ht] at hprogress
      exact hprogress

/-- A request changes nothing about the options. -/
theorem config_request (s : Session) : s.request.2.config = s.config := by
  -- all that a request does is to let turns pass
  obtain ⟨m, hm, -⟩ := Assembler.exists_turnsUntil Assembler.isIdle
    s.assembler.request.turnsLeft s.assembler.request
  have horigin : s.assembler.request.finish.turn.leaveLoop.origin = s.assembler.origin := by
    rw [Assembler.origin_leaveLoop, Assembler.origin_turn, Assembler.finish, hm,
      Assembler.origin_turn, Assembler.origin_turn, Assembler.origin_play]
    rfl
  exact congrArg Prod.fst horigin

/-- A session transforms a document with the result of its own request. -/
theorem transform_eq (s : Session) (d : Document) :
    (s.transform d).1 = (carriedOut s.stack s.config s.request.1 d).1 ∧
      (s.transform d).2.1 = (carriedOut s.stack s.config s.request.1 d).2 := by
  obtain ⟨ds, hds⟩ := s.request.2.transformWith_eq s.request.1 d
  have hrun : s.transform d = s.request.2.transformWith s.request.1 d := rfl
  rw [hrun, hds, s.config_request]
  exact ⟨rfl, rfl⟩

end Session

/-! ### Jobs -/

/-- A document that was submitted. It could not be read; or it waits for the request with the given
index; or its request has ended with an outcome, and then the job has the document as it was, the
document as it is, and the result of its transformation. -/
inductive Job where
  | unread (t : Trace)
  | waiting (d : Document) (request : ℕ)
  | finished (o : Outcome) (before after : Document) (result : Except Trace Report)

namespace Job

/-- The document as it was submitted. -/
def submitted : Job → Except Trace Document
  | .unread t => .error t
  | .waiting d _ => .ok d
  | .finished _ d _ _ => .ok d

/-- The request with the given index has ended: transform the document. -/
def settle (s : Session) : Job → Job × Session
  | .waiting d i =>
    match (s.assembler.requests[i]?).bind (·.outcome?) with
    | some o =>
      let (d', result, s) := s.transformWith o.result d
      (.finished o d d' result, s)
    | none => (.waiting d i, s)
  | j => (j, s)

/-- The loop of the document is left before its request has ended. -/
def abandon : Job → Job
  | .waiting d _ => .finished .cancelled d d (.error (.plain .cancelled ""))
  | j => j

/-- The job once these requests are there: its document is transformed when its request has
ended. -/
def after (stack : Stack) (c : Config) (requests : List Request) : Job → Job
  | .waiting d i =>
    match (requests[i]?).bind (·.outcome?) with
    | some o =>
      let run := Session.carriedOut stack c o.result d
      .finished o d run.1 run.2
    | none => .waiting d i
  | j => j

theorem after_waiting_of_some {stack : Stack} {c : Config} {requests : List Request}
    {d : Document} {i : ℕ} {o : Outcome} (h : (requests[i]?).bind (·.outcome?) = some o) :
    after stack c requests (.waiting d i) =
      .finished o d (Session.carriedOut stack c o.result d).1
        (Session.carriedOut stack c o.result d).2 := by
  simp only [after, h]

theorem after_waiting_of_none {stack : Stack} {c : Config} {requests : List Request}
    {d : Document} {i : ℕ} (h : (requests[i]?).bind (·.outcome?) = none) :
    after stack c requests (.waiting d i) = .waiting d i := by
  simp only [after, h]

/-- Settle several jobs, one after the other. -/
def settleAll (s : Session) : List Job → List Job × Session
  | [] => ([], s)
  | j :: rest =>
    let (j, s) := j.settle s
    let (rest, s) := settleAll s rest
    (j :: rest, s)

/-- A document whose request has ended is what its transformation with the outcome makes of it. -/
def IsCarriedOut (stack : Stack) (c : Config) : Job → Prop
  | .finished o d d' result => Session.carriedOut stack c o.result d = (d', result)
  | _ => True

end Job

/-- A session with the documents that were submitted to it: those of the current loop and those of
earlier loops. -/
structure Workload where
  session : Session
  current : List Job := []
  earlier : List Job := []

namespace Workload

/-- What happens to a workload: a document in HTML is submitted, a document that has been read is
submitted, or the loop turns, the request with an index is withdrawn, the build is cancelled, or the
loop is left. -/
inductive Move where
  | html (source : String)
  | document (d : Document)
  | turn
  | withdraw (i : ℕ)
  | cancel
  | leave

variable {k : Workload}

/-- All jobs, in the order in which their documents were submitted. -/
def jobs (k : Workload) : List Job := k.earlier ++ k.current

/-- A document that has been read makes a request. -/
def await (k : Workload) (d : Document) : Workload :=
  { k with
    session := k.session.withAssembler k.session.assembler.request
    current := k.current ++ [.waiting d k.session.assembler.requests.length] }

/-- Something happens to the assembler, and documents whose requests have ended are transformed. -/
def onward (k : Workload) (a : Assembler) : Workload :=
  let (jobs, s) := Job.settleAll (k.session.withAssembler a) k.current
  { k with session := s, current := jobs }

/-- Make a move. -/
def move (k : Workload) : Move → Workload
  | .html source =>
    match k.session.parse source with
    | (.error t, s) => { k with session := s, current := k.current ++ [.unread t] }
    | (.ok d, s) => { k with session := s }.await d
  | .document d => k.await d
  | .turn => k.onward k.session.assembler.turn
  | .withdraw i => k.onward (k.session.assembler.cancelRequest i)
  | .cancel => k.onward k.session.assembler.cancel
  -- the documents of the loop end with it, those that wait as well
  | .leave =>
    { session := k.session.withAssembler k.session.assembler.leaveLoop
      earlier := k.earlier ++ k.current.map Job.abandon }

/-- Make several moves. -/
def play (k : Workload) (ms : List Move) : Workload := ms.foldl move k

theorem play_append (k : Workload) (ms ms' : List Move) :
    k.play (ms ++ ms') = (k.play ms).play ms' := List.foldl_append

/-- The document that a move submits, if any. -/
def Move.submits? : Move → Option (Except Trace Document)
  | .html source => some (Document.ofText source)
  | .document d => some (.ok d)
  | _ => none

/-! ### What happens to a job -/

/-- A job stays as it is, or it comes to an end: by an outcome, or because its loop is left. -/
inductive Follows (stack : Stack) (c : Config) : Job → Job → Prop
  | same (j : Job) : Follows stack c j j
  | ends (o : Outcome) (d : Document) (i : ℕ) :
      Follows stack c (.waiting d i)
        (.finished o d (Session.carriedOut stack c o.result d).1
          (Session.carriedOut stack c o.result d).2)

theorem settle_eq (s : Session) (j : Job) :
    ∃ ds, j.settle s = (j.after s.stack s.config s.assembler.requests, s.report ds) := by
  have hnone : s.report [] = s := by simp [Session.report]
  cases j with
  | waiting d i =>
    rcases ho : (s.assembler.requests[i]?).bind (·.outcome?) with _ | o
    · rw [Job.after_waiting_of_none ho]
      exact ⟨[], by simp only [Job.settle, ho, hnone]⟩
    · obtain ⟨ds, hds⟩ := s.transformWith_eq o.result d
      rw [Job.after_waiting_of_some ho]
      exact ⟨ds, by simp only [Job.settle, ho, hds]⟩
  | _ => exact ⟨[], by rw [hnone]; rfl⟩

/-- Settling one job only adds to the diagnostics, so that it does not matter to the others. -/
theorem settleAll_eq (s : Session) (js : List Job) :
    ∃ ds, Job.settleAll s js =
      (js.map (Job.after s.stack s.config s.assembler.requests), s.report ds) := by
  induction js generalizing s with
  | nil => exact ⟨[], by simp [Session.report, Job.settleAll]⟩
  | cons j js ih =>
    obtain ⟨ds, hds⟩ := settle_eq s j
    obtain ⟨ds', hds'⟩ := ih (s.report ds)
    refine ⟨ds ++ ds', ?_⟩
    have hreport : (s.report ds).report ds' = s.report (ds ++ ds') := by simp [Session.report]
    rw [Job.settleAll, hds]
    dsimp only
    rw [hds', hreport]
    rfl

theorem follows_after (stack : Stack) (c : Config) (requests : List Request) (j : Job) :
    Follows stack c j (j.after stack c requests) := by
  cases j with
  | waiting d i =>
    rcases ho : (requests[i]?).bind (·.outcome?) with _ | o
    · rw [Job.after_waiting_of_none ho]
      exact .same _
    · rw [Job.after_waiting_of_some ho]
      exact .ends o d i
  | _ => exact .same _

theorem Follows.submitted {stack : Stack} {c : Config} {j j' : Job} (h : Follows stack c j j') :
    j'.submitted = j.submitted := by
  cases h <;> rfl

theorem Follows.isCarriedOut {stack : Stack} {c : Config} {j j' : Job}
    (h : Follows stack c j j') (hj : j.IsCarriedOut stack c) : j'.IsCarriedOut stack c := by
  cases h with
  | same => exact hj
  | ends o d i => rfl

theorem follows_abandon (stack : Stack) (c : Config) (j : Job) :
    Follows stack c j j.abandon := by
  cases j with
  | waiting d i => exact .ends .cancelled d i
  | _ => exact .same _

theorem forall₂_same (stack : Stack) (c : Config) (js : List Job) :
    List.Forall₂ (Follows stack c) js js :=
  List.forall₂_same.2 fun j _ => .same j

/-- What jobs that follow others have in common with them. -/
theorem of_forall₂_follows {stack : Stack} {c : Config} {js js' : List Job}
    (h : List.Forall₂ (Follows stack c) js js') :
    js'.map Job.submitted = js.map Job.submitted ∧
      ((∀ j ∈ js, j.IsCarriedOut stack c) → ∀ j ∈ js', j.IsCarriedOut stack c) := by
  induction h with
  | nil => exact ⟨rfl, id⟩
  | cons hj _ ih =>
    refine ⟨?_, fun hall => ?_⟩
    · rw [List.map_cons, List.map_cons, hj.submitted, ih.1]
    · rw [List.forall_mem_cons] at hall ⊢
      exact ⟨hj.isCarriedOut hall.1, ih.2 hall.2⟩

theorem onward_eq (k : Workload) (a : Assembler) :
    ∃ ds, k.onward a = { k with
      session := (k.session.withAssembler a).report ds
      current := k.current.map (Job.after k.session.stack a.config a.requests) } := by
  obtain ⟨ds, hds⟩ := settleAll_eq (k.session.withAssembler a) k.current
  refine ⟨ds, ?_⟩
  rw [onward, hds]
  rfl

theorem move_html_of_error {source : String} {t : Trace} (h : Document.ofText source = .error t) :
    k.move (.html source) =
      { k with session := (k.session.parse source).2, current := k.current ++ [.unread t] } := by
  simp only [move, Session.parse, h]

theorem move_html_of_ok {source : String} {d : Document} (h : Document.ofText source = .ok d) :
    k.move (.html source) =
      ({ k with session := (k.session.parse source).2 } : Workload).await d := by
  simp only [move, Session.parse, h]

/-- A move keeps the stack and the options. The jobs that are there follow each other, and a
document that is submitted becomes a job behind them, which has not finished. -/
structure Moves (k : Workload) (m : Move) (k' : Workload) : Prop where
  stack : k'.session.stack = k.session.stack
  config : k'.session.config = k.session.config
  jobs : ∃ js new, k'.jobs = js ++ new ∧
    List.Forall₂ (Follows k.session.stack k.session.config) k.jobs js ∧
    new.map Job.submitted = m.submits?.toList ∧
    ∀ j ∈ new, j.IsCarriedOut k.session.stack k.session.config

/-- Documents whose requests have ended are transformed, and no document is submitted. -/
theorem moves_onward {m : Move} {a : Assembler} (hm : m.submits? = none)
    (ha : a.origin = k.session.assembler.origin) : k.Moves m (k.onward a) := by
  obtain ⟨ds, hds⟩ := onward_eq k a
  have hconfig : a.config = k.session.config := congrArg Prod.fst ha
  have hcurrent : List.Forall₂ (Follows k.session.stack k.session.config) k.current
      (k.current.map (Job.after k.session.stack k.session.config a.requests)) :=
    List.forall₂_map_right_iff.2 (List.forall₂_same.2 fun j _ => follows_after _ _ _ j)
  rw [hconfig] at hds
  refine ⟨?_, ?_,
    k.earlier ++ k.current.map (Job.after k.session.stack k.session.config a.requests), [], ?_,
    List.rel_append (forall₂_same _ _ _) hcurrent, ?_, by simp⟩
  · rw [hds]
    rfl
  · rw [hds]
    exact hconfig
  · rw [hds, List.append_nil]
    rfl
  · rw [hm]
    rfl

theorem moves_await {m : Move} {d : Document} (hm : m.submits? = some (.ok d)) :
    k.Moves m (k.await d) := by
  refine ⟨rfl, rfl, k.jobs, [_], (List.append_assoc _ _ _).symm, forall₂_same _ _ _, ?_, ?_⟩
  · rw [hm]
    rfl
  · simp [Job.IsCarriedOut]

/-- **One move.** -/
theorem moves_move (k : Workload) (m : Move) : k.Moves m (k.move m) := by
  cases m with
  | html source =>
    cases hd : Document.ofText source with
    | error t =>
      rw [move_html_of_error hd]
      refine ⟨rfl, rfl, k.jobs, [.unread t], (List.append_assoc _ _ _).symm,
        forall₂_same _ _ _, ?_, ?_⟩
      · simp [Move.submits?, hd, Job.submitted]
      · simp [Job.IsCarriedOut]
    | ok d =>
      rw [move_html_of_ok hd]
      obtain ⟨hstack, hconfig, hjobs⟩ := moves_await (m := .html source)
        (k := { k with session := (k.session.parse source).2 }) (congrArg some hd)
      exact ⟨hstack, hconfig, hjobs⟩
  | document d => exact moves_await rfl
  | turn => exact moves_onward rfl Assembler.origin_turn
  | withdraw i => exact moves_onward rfl rfl
  | cancel => exact moves_onward rfl Assembler.origin_cancel
  | leave =>
    refine ⟨rfl, congrArg Prod.fst Assembler.origin_leaveLoop, _, [], (List.append_nil _).symm, ?_,
      rfl, by simp⟩
    have hleft : List.Forall₂ (Follows k.session.stack k.session.config) k.current
        (k.current.map Job.abandon) :=
      List.forall₂_map_right_iff.2 (List.forall₂_same.2 fun j _ => follows_abandon _ _ j)
    show List.Forall₂ _ _ (k.earlier ++ k.current.map Job.abandon ++ [])
    rw [List.append_nil]
    exact List.rel_append (forall₂_same _ _ _) hleft

/-- **All schedules.** There is one job for each document, in the order in which they were
submitted, and the jobs that have finished were carried out. -/
theorem play_spec (ms : List Move)
    (hk : ∀ j ∈ k.jobs, j.IsCarriedOut k.session.stack k.session.config) :
    (k.play ms).jobs.map Job.submitted =
        k.jobs.map Job.submitted ++ ms.filterMap Move.submits? ∧
      ∀ j ∈ (k.play ms).jobs, j.IsCarriedOut k.session.stack k.session.config := by
  induction ms generalizing k with
  | nil => exact ⟨by simp [play], hk⟩
  | cons m ms ih =>
    -- the old jobs follow each other, and a new one stands behind them
    obtain ⟨hstack, hconfig, js, new, hjobs, hfollows, hnew, hfresh⟩ := moves_move k m
    obtain ⟨hsame, hkept⟩ := of_forall₂_follows hfollows
    have hcarried : ∀ j ∈ (k.move m).jobs,
        j.IsCarriedOut (k.move m).session.stack (k.move m).session.config := by
      rw [hjobs, hstack, hconfig, List.forall_mem_append]
      exact ⟨hkept hk, hfresh⟩
    obtain ⟨hsubmitted, hall⟩ := ih hcarried
    rw [hstack, hconfig] at hall
    refine ⟨?_, hall⟩
    show ((k.move m).play ms).jobs.map Job.submitted = _
    rw [hsubmitted, hjobs, List.map_append, hsame, hnew, List.append_assoc]
    cases hm : m.submits? <;> simp [hm]

/-! ### The main result -/

/-- **Documents change block by block.** A session that transforms a document leaves it as it was
when its request ends without a registry. With a registry the document comes as far as its blocks
allow: the blocks in front of the first one whose failure escapes are replaced as a whole, and the
others are untouched.

The same is true at every moment of every schedule. There is one job for each document that was
submitted, in order, and each document whose request has ended has changed in this way. -/
theorem documents_change_block_by_block (s : Session) :
    (∀ d, d.IsNumbered →
      Session.ChangesByBlocks s.stack s.config s.request.1 d (s.transform d).1
        (s.transform d).2.1) ∧
    ∀ ms, (∀ d, .document d ∈ ms → d.IsNumbered) →
      let k := (⟨s, [], []⟩ : Workload).play ms
      k.jobs.map Job.submitted = ms.filterMap Move.submits? ∧
      ∀ o d d' result, .finished o d d' result ∈ k.jobs →
        Session.ChangesByBlocks s.stack s.config o.result d d' result := by
  constructor
  · intro d hd
    obtain ⟨hdocument, hresult⟩ := s.transform_eq d
    rw [hdocument, hresult]
    exact Session.changesByBlocks_carriedOut _ _ _ hd
  intro ms numbered k
  obtain ⟨hsubmitted, hcarried⟩ := play_spec (k := ⟨s, [], []⟩) ms (by rintro _ ⟨⟩)
  refine ⟨hsubmitted, fun o d d' result hj => ?_⟩
  have hrun : Session.carriedOut s.stack s.config o.result d = (d', result) := hcarried _ hj
  -- the document was submitted: by its source, or as a document that is numbered
  have hd : d.IsNumbered := by
    have hmem := List.mem_map_of_mem (f := Job.submitted) hj
    rw [hsubmitted] at hmem
    obtain ⟨m, hm, hd⟩ := List.mem_filterMap.1 hmem
    cases m with
    | html source => exact Document.isNumbered_of_ofText (Option.some.inj hd)
    | document d =>
      cases hd
      exact numbered d hm
    | _ => cases hd
  have hchanges := Session.changesByBlocks_carriedOut s.stack s.config o.result hd
  rw [hrun] at hchanges
  exact hchanges

/-- A grammar that is interrupted while it parses. -/
def interruptedGrammar : Grammar where
  serial := 1
  typeName := "Interrupted"
  parse := fun _ => .error (.plain .interrupt "")
  resolver := .ok fun _ _ => .ok []

/-- A session with a grammar for one language and one that is interrupted for another. -/
def interruptedSession : Session where
  assembler := .initial
    { grammars := [("raw", Highlight.fixedGrammar { label := "program", start := 0, stop := 1 }),
        ("js", interruptedGrammar)] } slowLoader
  stack := .usual
  extensions := []

/-- Without packages the registry is there after two turns. -/
theorem jobs_play_interruptedSession (d : Document) :
    let run := Session.carriedOut .usual interruptedSession.config
      (.ok interruptedSession.config.explicit) d
    ((⟨interruptedSession, [], []⟩ : Workload).play [.document d, .turn, .turn]).jobs =
      [.finished (.registry 0 interruptedSession.config.explicit) d run.1 run.2] := by
  let k : Workload := (⟨interruptedSession, [], []⟩ : Workload).play [.document d, .turn]
  obtain ⟨ds, hds⟩ := onward_eq k k.session.assembler.turn
  show (k.onward k.session.assembler.turn).jobs = _
  rw [hds]
  rfl

/-- The first of two blocks is replaced, and the second one, at which the run is interrupted, is as
it was. -/
theorem documents_change_block_by_block_interrupted :
    let ms := [.document Block.twoBlocks, .turn, .turn]
    let c := interruptedSession.config
    (∀ d, .document d ∈ ms → d.IsNumbered) ∧
      ∃ d', .finished (.registry 0 c.explicit) Block.twoBlocks d' (.error (.plain .interrupt "")) ∈
          ((⟨interruptedSession, [], []⟩ : Workload).play ms).jobs ∧
        Block.Progress .usual c c.explicit Block.twoBlocks d' (.error (.plain .interrupt "")) ∧
        d'.root.children =
          [.element ⟨2, "pre", false, [("class", .words ["tree-sitter", "language-raw"])]⟩
            [.element ⟨3, "code", false, [("class", .words ["language-raw"])]⟩
              [.element ⟨0, "span", false, [("class", .words ["program"])]⟩
                [.text .plain ("x" : String)]]],
          .element ⟨4, "pre", false, []⟩
            [.element ⟨5, "code", false, [("class", .words ["language-js"])]⟩
              [.text .plain ("let y" : String)]]] := by
  intro ms c
  have numbered : ∀ d, .document d ∈ ms → d.IsNumbered := by
    intro d hd
    simp only [ms, List.mem_cons, Move.document.injEq, reduceCtorEq, List.not_mem_nil,
      or_false] at hd
    rw [hd]
    exact Block.isNumbered_twoBlocks
  obtain ⟨-, hjobs⟩ := (documents_change_block_by_block interruptedSession).2 ms numbered
  have hresult : (Session.carriedOut .usual c (.ok c.explicit) Block.twoBlocks).2 =
      .error (.plain .interrupt "") := by
    cbv
  have hmem : .finished (.registry 0 c.explicit) Block.twoBlocks
      (Session.carriedOut .usual c (.ok c.explicit) Block.twoBlocks).1
        (.error (.plain .interrupt "")) ∈
        ((⟨interruptedSession, [], []⟩ : Workload).play ms).jobs := by
    rw [jobs_play_interruptedSession, ← hresult]
    exact List.mem_singleton_self _
  refine ⟨numbered, _, hmem, hjobs _ _ _ _ hmem, ?_⟩
  cbv

end Workload
end CodeHighlight
