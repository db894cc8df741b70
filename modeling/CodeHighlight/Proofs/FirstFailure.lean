import CodeHighlight.Proofs.SharedOutcome

/-!
# The first failure

Main statement: `first_failure_decides`. When loads fail, the failure of the one that is over first
is the outcome of all requests, and the log reports the loads that delivered a mapping no later than
that, in the order in which they were over.

What the first build has done at each of its stages is known from the loads alone (`RecordsAt`): the
log follows them tick by tick (`Load.endedBefore_succ`), up to the tick of the load that decides.
-/

namespace CodeHighlight

namespace Load
variable {loads : List Load}

/-! ### Loads in the order of their ends -/

/-- The load delivers a mapping. -/
def delivers (l : Load) : Bool :=
  match l.delivery.result with
  | .ok (.map _) => true
  | _ => false

/-- One load is over no later than another. -/
def NotLater (l q : Load) : Prop := l.delivery.ticks ≤ q.delivery.ticks

instance : DecidableRel NotLater := fun l q =>
  inferInstanceAs (Decidable (l.delivery.ticks ≤ q.delivery.ticks))

/-- Loads in the order in which they are over, those that are over at once as they are listed. -/
def inEndOrder (loads : List Load) : List Load := loads.insertionSort NotLater

/-- The loads that take fewer ticks, in the order in which they are over. -/
def endedBefore (loads : List Load) (n : ℕ) : List Load :=
  inEndOrder (loads.filter fun l => l.delivery.ticks < n)

theorem endedBefore_zero (loads : List Load) : endedBefore loads 0 = [] := by
  simp [endedBefore, inEndOrder]

/-- A load stands before all that are not over earlier. -/
theorem orderedInsert_append_of_notLater {l : Load} {qs : List Load} (hqs : ∀ q ∈ qs, l.NotLater q)
    (ps : List Load) :
    (ps ++ qs).orderedInsert NotLater l = ps.orderedInsert NotLater l ++ qs := by
  induction ps with
  | nil =>
    cases qs with
    | nil => rfl
    | cons q qs => exact List.orderedInsert_cons_of_le _ _ (hqs q List.mem_cons_self)
  | cons p ps ih =>
    rw [List.cons_append, List.orderedInsert_cons, List.orderedInsert_cons, ih]
    split_ifs <;> rfl

/-- A load stands behind all that are over earlier. -/
theorem orderedInsert_append_of_later {l : Load} {ps qs : List Load}
    (hps : ∀ p ∈ ps, ¬l.NotLater p) (hqs : ∀ q ∈ qs, l.NotLater q) :
    (ps ++ qs).orderedInsert NotLater l = ps ++ l :: qs := by
  rw [orderedInsert_append_of_notLater hqs]
  induction ps with
  | nil => rfl
  | cons p ps ih =>
    obtain ⟨hp, hps⟩ := List.forall_mem_cons.1 hps
    rw [List.orderedInsert_cons, if_neg hp, List.cons_append, ih hps, List.cons_append]

theorem ticks_of_mem_endedBefore {n : ℕ} {l : Load} (h : l ∈ endedBefore loads n) :
    l.delivery.ticks < n := by
  have hmem := (List.mem_insertionSort NotLater).1 h
  simpa using (List.mem_filter.1 hmem).2

/-- **The loads of the next tick** come behind those that are over, as they are listed. -/
theorem endedBefore_succ (loads : List Load) (n : ℕ) :
    endedBefore loads (n + 1) =
      endedBefore loads n ++ loads.filter fun l => l.delivery.ticks == n := by
  induction loads with
  | nil => rfl
  | cons l loads ih =>
    have hnow : ∀ q ∈ loads.filter (fun q => q.delivery.ticks == n), q.delivery.ticks = n :=
      fun q hq => by simpa using (List.mem_filter.1 hq).2
    have hcons (m : ℕ) (hm : l.delivery.ticks < m) :
        endedBefore (l :: loads) m = (endedBefore loads m).orderedInsert NotLater l := by
      rw [endedBefore, List.filter_cons_of_pos (by simpa using hm)]
      rfl
    have hskip (m : ℕ) (hm : ¬l.delivery.ticks < m) :
        endedBefore (l :: loads) m = endedBefore loads m := by
      rw [endedBefore, List.filter_cons_of_neg (by simpa using hm)]
      rfl
    rcases lt_trichotomy l.delivery.ticks n with hlt | heq | hgt
    · rw [hcons _ (by omega), hcons _ hlt, ih, List.filter_cons_of_neg (by simp; omega)]
      refine orderedInsert_append_of_notLater (fun q hq => ?_) _
      exact hlt.le.trans_eq (hnow q hq).symm
    · rw [hcons _ (by omega), hskip _ (by omega), ih, List.filter_cons_of_pos (by simp [heq])]
      refine orderedInsert_append_of_later (fun p hp => ?_) fun q hq => ?_
      · exact not_le.2 ((ticks_of_mem_endedBefore hp).trans_eq heq.symm)
      · exact (heq.trans (hnow q hq).symm).le
    · rw [hskip _ (by omega), hskip _ (by omega), ih, List.filter_cons_of_neg (by simp; omega)]

theorem events_append (ps qs : List Load) : events (ps ++ qs) = events ps ++ events qs :=
  List.filterMap_append

theorem events_endedBefore_prefix (loads : List Load) {m n : ℕ} (h : m ≤ n) :
    events (endedBefore loads m) <+: events (endedBefore loads n) := by
  induction h with
  | refl => exact List.prefix_refl _
  | step _ ih =>
    rw [endedBefore_succ, events_append]
    exact ih.trans (List.prefix_append _ _)

/-- The loads that are over no later than one of them. -/
theorem endedBefore_succ_ticks (loads : List Load) (l : Load) :
    endedBefore loads (l.delivery.ticks + 1) = inEndOrder (loads.filter fun q => q.NotLater l) :=
  congrArg inEndOrder (List.filter_congr fun _ _ => decide_eq_decide.2 Nat.lt_succ_iff)

theorem mem_of_mem_inEndOrder {l : Load} {p : Load → Bool} (h : l ∈ inEndOrder (loads.filter p)) :
    l ∈ loads :=
  List.mem_of_mem_filter ((List.mem_insertionSort NotLater).1 h)

/-! ### The load that decides -/

/-- No load that is over before the one that decides fails. -/
theorem failure?_of_ticks_lt {l q : Load} (hl : decisive? loads = some l) (hq : q ∈ loads)
    (hlt : q.delivery.ticks < l.delivery.ticks) : q.failure? = none := by
  by_contra hfails
  have hmem : q ∈ loads.filter fun l => l.failure?.isSome :=
    List.mem_filter.2 ⟨hq, Option.isSome_iff_ne_none.2 hfails⟩
  exact absurd (List.le_of_mem_argmin hmem hl) (not_le.2 hlt)

/-- The load that decides is the first one of its tick that fails. -/
theorem firstFailure?_of_decisive? {l : Load} (hl : decisive? loads = some l) :
    firstFailure? (loads.filter fun q => q.delivery.ticks == l.delivery.ticks) = l.failure? := by
  obtain ⟨hmem, hfails⟩ := mem_of_decisive? hl
  rcases hf : firstFailure? (loads.filter fun q => q.delivery.ticks == l.delivery.ticks) with _ | t
  · rw [failure?_eq_none_of_firstFailure? hf (List.mem_filter.2 ⟨hmem, by simp⟩)] at hfails
    cases hfails
  · obtain ⟨l', hl', -, ht⟩ := decisive?_of_firstFailure?
      (fun q hq hlt => failure?_of_ticks_lt hl hq hlt) hf
    rw [hl, Option.some.injEq] at hl'
    rw [hl', ht]

/-- No load of an earlier tick fails. -/
theorem firstFailure?_of_ticks_lt {l : Load} (hl : decisive? loads = some l) {n : ℕ}
    (hn : n < l.delivery.ticks) :
    firstFailure? (loads.filter fun q => q.delivery.ticks == n) = none := by
  refine List.findSome?_eq_none_iff.2 fun q hq => ?_
  obtain ⟨hmem, hticks⟩ := List.mem_filter.1 hq
  have hlt : q.delivery.ticks < l.delivery.ticks := by
    rw [beq_iff_eq] at hticks
    omega
  exact failure?_of_ticks_lt hl hmem hlt

/-! ### What orderly loads give -/

/-- The event reports the mapping that the load delivered. -/
def ReportedBy (l : Load) (e : Event) : Prop :=
  ∃ es, l.delivery.result = .ok (.map es) ∧ e.Reports l.package es

/-- A failure of initialization that names the package of the load. It is raised from the failure of
the loader, if the loader failed. -/
def FailsWith (l : Load) (t : Trace) : Prop :=
  ∃ message, t =
    match l.delivery.result with
    | .error e => e.raiseFrom (.inInitialization l.package message)
    | .ok _ => .ofFailure (.inInitialization l.package message)

/-- Of the loads that deliver no mapping this one is over first; when several are over at once, it
is the one listed first. -/
def FailsFirst (loads : List Load) (l : Load) : Prop :=
  ∃ before after, loads = before ++ l :: after ∧ l.delivers = false ∧
    (∀ q ∈ before, q.delivers = false → l.delivery.ticks < q.delivery.ticks) ∧
    ∀ q ∈ after, q.delivers = false → l.delivery.ticks ≤ q.delivery.ticks

theorem FailsWith.kind {l : Load} {t : Trace} (h : l.FailsWith t) : t.kind = .initialization := by
  obtain ⟨message, rfl⟩ := h
  rcases l.delivery.result with e | v
  · exact Trace.kind_raiseFrom _ _
  · rfl

/-- An orderly load that delivers a mapping succeeds and reports it. -/
theorem outcome_of_delivers {l : Load} (orderly : l.delivery.IsOrderly) (h : l.delivers = true) :
    ∃ r e, l.outcome = .ok (r, e) ∧ l.ReportedBy e := by
  unfold delivers at h
  split at h
  · rename_i es hes
    have htext : Entries.IsTextual es := by
      rwa [Delivery.IsOrderly, hes] at orderly
    obtain ⟨e, he, hreports⟩ := outcome_of_textual l.package htext
    refine ⟨registryOf es, e, ?_, es, hes, hreports⟩
    rw [← he, outcome, outcome, hes]
  · cases h

/-- An orderly load that delivers no mapping fails. -/
theorem outcome_of_not_delivers {l : Load} (orderly : l.delivery.IsOrderly)
    (h : l.delivers = false) : ∃ t, l.outcome = .error t ∧ l.FailsWith t := by
  unfold delivers at h
  unfold Delivery.IsOrderly at orderly
  unfold outcome FailsWith
  rcases hr : l.delivery.result with e | v
  · rw [hr] at orderly
    exact ⟨_, rfl, _, if_pos orderly⟩
  · rw [hr] at h
    cases v with
    | map entries => cases h
    | _ => exact ⟨_, rfl, _, rfl⟩

theorem failure?_eq_none_iff {l : Load} (orderly : l.delivery.IsOrderly) :
    l.failure? = none ↔ l.delivers = true := by
  unfold failure?
  rcases hd : l.delivers
  · obtain ⟨t, ht, _⟩ := outcome_of_not_delivers orderly hd
    simp [ht]
  · obtain ⟨r, e, he, _⟩ := outcome_of_delivers orderly hd
    simp [he]

theorem failsWith_of_failure? {l : Load} (orderly : l.delivery.IsOrderly) {t : Trace}
    (ht : l.failure? = some t) : l.FailsWith t := by
  have hd : l.delivers = false := by
    rw [Bool.eq_false_iff]
    intro hd
    rw [(failure?_eq_none_iff orderly).2 hd] at ht
    cases ht
  obtain ⟨t', ht', hfails⟩ := outcome_of_not_delivers orderly hd
  rw [failure?, ht', Option.some.injEq] at ht
  rwa [← ht]

/-- The events of orderly loads report their mappings, in order. -/
theorem reportedBy_events (orderly : ∀ l ∈ loads, l.delivery.IsOrderly) :
    List.Forall₂ ReportedBy (loads.filter delivers) (events loads) := by
  induction loads with
  | nil => exact .nil
  | cons l loads ih =>
    obtain ⟨hl, hrest⟩ := List.forall_mem_cons.1 orderly
    rcases hd : l.delivers
    · obtain ⟨t, ht, _⟩ := outcome_of_not_delivers hl hd
      have hskip : events (l :: loads) = events loads := by
        simp only [events, List.filterMap_cons, ht]
      rw [hskip, List.filter_cons_of_neg (by simp [hd])]
      exact ih hrest
    · obtain ⟨r, e, he, hreports⟩ := outcome_of_delivers hl hd
      have hcons : events (l :: loads) = e :: events loads := by
        simp only [events, List.filterMap_cons, he]
      rw [hcons, List.filter_cons_of_pos hd]
      exact .cons hreports (ih hrest)

theorem isReady_of_reportedBy {reports : List Event} (h : List.Forall₂ ReportedBy loads reports)
    {e : Event} (he : e ∈ reports) : e.isReady = false := by
  induction h with
  | nil => cases he
  | cons hl _ ih =>
    rcases List.mem_cons.1 he with rfl | he
    · obtain ⟨es, _, keys, rfl, _⟩ := hl
      rfl
    · exact ih he

theorem package?_of_reportedBy {reports : List Event} (h : List.Forall₂ ReportedBy loads reports) :
    reports.map Event.package? = loads.map fun l => some l.package := by
  induction h with
  | nil => rfl
  | cons hl _ ih =>
    obtain ⟨es, _, keys, rfl, _⟩ := hl
    rw [List.map_cons, List.map_cons, ih, Event.package?_packageLoaded]

theorem exists_decisive? (orderly : ∀ l ∈ loads, l.delivery.IsOrderly)
    (fails : ∃ l ∈ loads, l.delivers = false) : ∃ l, decisive? loads = some l := by
  obtain ⟨q, hq, hd⟩ := fails
  rw [← Option.isSome_iff_exists, Option.isSome_iff_ne_none]
  intro hnone
  have hnil := List.argmin_eq_none.1 hnone
  rw [List.filter_eq_nil_iff] at hnil
  have hsome : q.failure?.isSome = true := by
    rw [Option.isSome_iff_ne_none]
    intro hf
    rw [(failure?_eq_none_iff (orderly q hq)).1 hf] at hd
    cases hd
  exact hnil q hq hsome

/-- The load that decides is the one that fails first. -/
theorem failsFirst_of_decisive? (orderly : ∀ l ∈ loads, l.delivery.IsOrderly) {l : Load}
    (hl : decisive? loads = some l) : FailsFirst loads l := by
  induction loads generalizing l with
  | nil => cases hl
  | cons q loads ih =>
    obtain ⟨hq, hrest⟩ := List.forall_mem_cons.1 orderly
    rcases hf : q.failure? with _ | t
    · rw [decisive?_cons_of_eq_none hf] at hl
      obtain ⟨before, after, rfl, hd, hbefore, hafter⟩ := ih hrest hl
      have hq' : q.delivers = true := (failure?_eq_none_iff hq).1 hf
      exact ⟨q :: before, after, rfl, hd,
        List.forall_mem_cons.2 ⟨by simp [hq'], hbefore⟩, hafter⟩
    · have hq' : q.delivers = false := by
        rw [Bool.eq_false_iff, Ne, ← failure?_eq_none_iff hq, hf]
        simp
      rw [decisive?_cons_of_eq_some hf, Option.some.injEq] at hl
      rcases hc : decisive? loads with _ | c
      · rw [hc] at hl
        subst hl
        refine ⟨[], loads, rfl, hq', by simp, fun p hp hd => ?_⟩
        obtain ⟨l, hl⟩ := exists_decisive? hrest ⟨p, hp, hd⟩
        rw [hl] at hc
        cases hc
      · obtain ⟨before, after, heq, hd, hbefore, hafter⟩ := ih hrest hc
        rw [hc] at hl
        dsimp only at hl
        split_ifs at hl with hlt
        · subst hl
          exact ⟨q :: before, after, by rw [heq]; rfl, hd,
            List.forall_mem_cons.2 ⟨fun _ => hlt, hbefore⟩, hafter⟩
        · subst hl
          refine ⟨[], loads, rfl, hq', by simp, fun p hp hd' => ?_⟩
          -- no load behind it is over before the one that would decide without it
          have hle : c.delivery.ticks ≤ p.delivery.ticks := by
            rw [heq, List.mem_append, List.mem_cons] at hp
            rcases hp with hp | rfl | hp
            · exact (hbefore p hp hd').le
            · exact le_rfl
            · exact hafter p hp hd'
          exact (not_lt.1 hlt).trans hle

end Load

namespace Assembler
variable {a : Assembler} {config : Config} {loader : Loader} {l : Load}

/-! ### What a failing build records -/

/-- All packages have been asked for, and the log reports the loads that were over when a load
decided. -/
def RecordsAll (l : Load) (a : Assembler) : Prop :=
  a.asked = a.config.packages ∧
    a.log = Load.events (Load.endedBefore (a.loadsAfter []) (l.delivery.ticks + 1))

/-- What the first build has done at a stage, when a load decides it. -/
def RecordsAt (l : Load) (a : Assembler) : Stage → Prop
  | .scheduled => a.asked = [] ∧ a.log = []
  | .loading elapsed loads =>
    loads = a.loadsAfter [] ∧ elapsed < l.delivery.ticks ∧ a.asked = a.config.packages ∧
      a.log = Load.events (Load.endedBefore loads (elapsed + 1))
  | .failing _ | .settled (.error _) => a.RecordsAll l
  | .settled (.ok _) => False

/-- What an assembler has done whose first build a load decides: nothing yet, what belongs to the
stage of the build, or all. -/
def Recorded (config : Config) (loader : Loader) (l : Load) (a : Assembler) : Prop :=
  a.core = initial config loader ∨ (∃ s, a.task = .running 0 s ∧ a.RecordsAt l s) ∨
    ¬a.IsBuilding ∧ a.RecordsAll l

theorem Recorded.of_core_eq {b : Assembler} (h : a.Recorded config loader l)
    (hc : b.core = a.core) : b.Recorded config loader l := by
  have hb : b.core.Recorded config loader l := by
    rw [hc]
    exact h
  exact hb

/-- Once the loads of a tick have finished, the log reports them. -/
theorem recordsAt_finishLoads (hl : Load.decisive? (a.loadsAfter []) = some l) {elapsed : ℕ}
    (hle : elapsed ≤ l.delivery.ticks) (hasked : a.asked = a.config.packages)
    (hlog : a.log = Load.events (Load.endedBefore (a.loadsAfter []) elapsed)) :
    ∃ log s, a.finishLoads 0 elapsed (a.loadsAfter []) =
      { a with log := log, task := .running 0 s } ∧
      RecordsAt l { a with log := log, task := .running 0 s } s := by
  have hnext : a.log ++
      Load.events ((a.loadsAfter []).filter fun q => q.delivery.ticks == elapsed) =
        Load.events (Load.endedBefore (a.loadsAfter []) (elapsed + 1)) := by
    rw [hlog, Load.endedBefore_succ, Load.events_append]
  unfold finishLoads
  refine ⟨_, _, rfl, ?_⟩
  rcases hle.lt_or_eq with hlt | heq
  · -- the load that decides goes on
    have hmore : ((a.loadsAfter []).all fun q => decide (q.delivery.ticks ≤ elapsed)) = false := by
      refine List.all_eq_false.2 ⟨l, (Load.mem_of_decisive? hl).1, ?_⟩
      simpa using hlt
    simp only [Load.firstFailure?_of_ticks_lt hl hlt, hmore]
    exact ⟨rfl, hlt, hasked, hnext⟩
  · subst heq
    obtain ⟨t, ht⟩ := Option.isSome_iff_exists.1 (Load.mem_of_decisive? hl).2
    simp only [Load.firstFailure?_of_decisive? hl, ht]
    split_ifs
    · exact ⟨hasked, hnext⟩
    · exact ⟨hasked, hnext⟩

/-- **A failing build that goes on for one turn** records what belongs to its next stage, or it has
recorded all. -/
theorem recorded_advance (hl : Load.decisive? (a.loadsAfter []) = some l) {s : Stage}
    (hs : a.RecordsAt l s) : (a.advance 0 s).Recorded config loader l := by
  rcases s with _ | ⟨elapsed, loads⟩ | t | t | loaded
  · obtain ⟨hasked, hlog⟩ := hs
    have hp : ¬a.config.packages.isEmpty = true := by
      intro hp
      rw [loadsAfter, List.isEmpty_iff.1 hp] at hl
      cases hl
    obtain ⟨log, s', heq, hs'⟩ := recordsAt_finishLoads (a := a.asking) hl (Nat.zero_le _)
      (by rw [asking, hasked]; rfl) (by rw [Load.endedBefore_zero]; exact hlog)
    rw [advance_scheduled hp, hasked, show a.loadsAfter [] = a.asking.loadsAfter [] from rfl, heq]
    exact Or.inr (Or.inl ⟨s', rfl, hs'⟩)
  · obtain ⟨rfl, hlt, hasked, hlog⟩ := hs
    obtain ⟨log, s', heq, hs'⟩ := recordsAt_finishLoads hl hlt hasked hlog
    rw [show a.advance 0 (.loading elapsed (a.loadsAfter [])) =
      a.finishLoads 0 (elapsed + 1) (a.loadsAfter []) from rfl, heq]
    exact Or.inr (Or.inl ⟨s', rfl, hs'⟩)
  · exact Or.inr (Or.inl ⟨.settled (.error t), rfl, hs⟩)
  · refine Or.inr (Or.inr ?_)
    show ¬(a.publish 0 (.error t)).IsBuilding ∧ (a.publish 0 (.error t)).RecordsAll l
    unfold publish
    dsimp only
    split_ifs
    · exact ⟨by rintro ⟨_, _, ⟨⟩⟩, hs⟩
    · exact ⟨by rintro ⟨_, _, ⟨⟩⟩, hs⟩
  · exact hs.elim

/-- The first request that begins starts the first build. -/
theorem Steady.recorded_turn_of_new (h : a.Steady config loader)
    (hnew : a.core = initial config loader) : a.turn.Recorded config loader l := by
  by_cases hs : a.hasScheduled = true
  · have hneeds : a.needsBuild = true := by
      show a.core.needsBuild = true
      rw [hnew]
      rfl
    have hturn : a.turn.core = (initial config loader).ready := by
      rw [core_turn_of_needsBuild h.late hneeds hs, hnew]
    have hready : (initial config loader).ready.Recorded config loader l :=
      Or.inr (Or.inl ⟨.scheduled, rfl, rfl, rfl⟩)
    exact Recorded.of_core_eq hready (hturn.trans rfl)
  · rw [h.turn_of_idle hnew (by simpa using hs)]
    exact Or.inl hnew

/-- **A turn keeps the record.** -/
theorem Steady.recorded_turn (h : a.Steady config loader) (hr : a.Recorded config loader l)
    (hl : Load.decisive? (Load.askAll loader [] config.packages) = some l) :
    a.turn.Recorded config loader l := by
  rcases h.build with hnew | hunder | hkeeps
  · exact h.recorded_turn_of_new hnew
  · rcases hr with hnew | ⟨s, ht, hs⟩ | ⟨hover, _⟩
    · exact h.recorded_turn_of_new hnew
    · rw [turn_eq_advance hunder.registry hunder.error hunder.late ht]
      rw [← h.loadsAfter_eq] at hl
      exact recorded_advance (a := { a with requests := a.requests.map _ }) hl hs
    · exact absurd hunder.isBuilding hover
  · exact hr.of_core_eq (hkeeps.core_move h.late .turn)

/-- Whatever happens while no build is interrupted keeps the record. -/
theorem Steady.recorded_move (h : a.Steady config loader) (hr : a.Recorded config loader l)
    (hl : Load.decisive? (Load.askAll loader [] config.packages) = some l) {m : Move}
    (hm : m = .cancel ∨ m = .leave → ¬a.IsBuilding) : (a.move m).Recorded config loader l := by
  cases m with
  | turn => exact h.recorded_turn hr hl
  | request => exact hr.of_core_eq rfl
  | withdraw i => exact hr.of_core_eq rfl
  | cancel =>
    rw [show a.move .cancel = a from h.cancel_eq (hm (Or.inl rfl))]
    exact hr
  | leave => exact hr.of_core_eq (core_leaveLoop h.late (hm (Or.inr rfl)))

/-- **Every moment of an uninterrupted schedule** is on record. -/
theorem Steady.recorded_play (h : a.Steady config loader) (hr : a.Recorded config loader l)
    (hl : Load.decisive? (Load.askAll loader [] config.packages) = some l)
    (shared : (firstOutcome config loader).IsShared) {ms : List Move} (hms : a.Uninterrupted ms) :
    (a.play ms).Recorded config loader l := by
  induction ms generalizing a with
  | nil => exact hr
  | cons m ms ih => exact ih (h.move shared hms.1) (h.recorded_move hr hl hms.1) hms.2

/-- What is on record: nothing has been asked for, or all packages have, and the log is the
beginning of the final one; it is the final one once something is published. -/
theorem Steady.log_of_recorded (h : a.Steady config loader) (hr : a.Recorded config loader l) :
    let reports := Load.events (Load.endedBefore (Load.askAll loader [] config.packages)
      (l.delivery.ticks + 1))
    (a.asked = [] ∨ a.asked = config.packages) ∧ a.log <+: reports ∧
      (a.done = true → a.asked = config.packages ∧ a.log = reports) := by
  intro reports
  have hconfig : a.config = config := congrArg Prod.fst h.origin
  have hall (hall : a.RecordsAll l) : a.asked = config.packages ∧ a.log = reports := by
    obtain ⟨hasked, hlog⟩ := hall
    rw [hconfig] at hasked
    rw [h.loadsAfter_eq] at hlog
    exact ⟨hasked, hlog⟩
  rcases hr with hnew | ⟨s, ht, hs⟩ | ⟨_, hover⟩
  · have ha := eq_of_core_initial hnew
    refine ⟨Or.inl (by rw [ha]; rfl), ⟨reports, by rw [ha]; rfl⟩, fun hd => ?_⟩
    rw [ha] at hd
    cases hd
  · have hdone : a.done ≠ true := fun hd => (h.keeps_of_done hd).not_isBuilding ⟨0, s, ht⟩
    rcases s with _ | ⟨elapsed, loads⟩ | t | t | loaded
    · obtain ⟨hasked, hlog⟩ := hs
      exact ⟨Or.inl hasked, ⟨reports, by rw [hlog]; rfl⟩, fun hd => absurd hd hdone⟩
    · obtain ⟨rfl, hlt, hasked, hlog⟩ := hs
      refine ⟨Or.inr (by rw [hasked, hconfig]), ?_, fun hd => absurd hd hdone⟩
      rw [hlog, h.loadsAfter_eq]
      exact Load.events_endedBefore_prefix _ (by omega)
    · obtain ⟨hasked, hlog⟩ := hall hs
      exact ⟨Or.inr hasked, hlog ▸ List.prefix_refl _, fun hd => absurd hd hdone⟩
    · obtain ⟨hasked, hlog⟩ := hall hs
      exact ⟨Or.inr hasked, hlog ▸ List.prefix_refl _, fun hd => absurd hd hdone⟩
    · exact hs.elim
  · obtain ⟨hasked, hlog⟩ := hall hover
    exact ⟨Or.inr hasked, hlog ▸ List.prefix_refl _, fun _ => ⟨hasked, hlog⟩⟩

theorem Steady.error_of_failure (h : a.Steady config loader) {t : Trace}
    (ho : firstOutcome config loader = .failure 0 t) (hd : a.done = true) :
    a.error = some (0, t) := by
  rcases (h.keeps_of_done hd).published with ⟨n, r, _, heq⟩ | ⟨n, t', he, heq⟩
  · rw [ho] at heq
    cases heq
  · rw [ho] at heq
    cases heq
    exact he

/-- No registry is published when the first build fails. -/
theorem Steady.registry_of_failure (h : a.Steady config loader) {t : Trace}
    (ho : firstOutcome config loader = .failure 0 t) : a.registry = none := by
  by_cases hd : a.done = true
  · refine (h.keeps_of_done hd).single.resolve_right fun he => ?_
    rw [h.error_of_failure ho hd] at he
    cases he
  · exact (not_done_iff.1 (by simpa using hd)).1

/-! ### The main result -/

/-- The failure of the load that decides is what those who wait for the first build are given. -/
theorem firstOutcome_of_decisive? {t : Trace}
    (hl : Load.decisive? (Load.askAll loader [] config.packages) = some l)
    (ht : l.failure? = some t) : firstOutcome config loader = .failure 0 t := by
  rw [firstOutcome, Load.verdict, hl, Option.bind_some, ht]
  rfl

/-- **The first failure decides.** Let the deliveries of the listed packages be mappings under
texts, other things, or ordinary failures, and let one of them be no mapping. There are the load `l`
that fails first, its failure `t`, the events `reports` of the mappings that are delivered no later,
in the order in which their loads are over, and a number of turns, such that at every moment of
every schedule in which no build is cancelled and none is left behind by its loop:

* a request that has ended was cancelled, or it has ended with `t`, and `t` is published;
* no registry is published or reported;
* nothing has been asked for, or every package once for each time it is listed; the log begins as
  `reports`, and once something is published, all packages have been asked for and the log is
  `reports`;
* an open request that is not cancelled itself, and whose loop is not left, has ended with `t` after
  that many turns. -/
theorem first_failure_decides (config : Config) (loader : Loader)
    (orderly : ∀ l ∈ Load.askAll loader [] config.packages, l.delivery.IsOrderly)
    (fails : ∃ l ∈ Load.askAll loader [] config.packages, l.delivers = false) :
    let loads := Load.askAll loader [] config.packages
    ∃ l t reports patience, Load.FailsFirst loads l ∧ l.FailsWith t ∧
      List.Forall₂ Load.ReportedBy
        ((Load.inEndOrder (loads.filter fun q => q.NotLater l)).filter Load.delivers) reports ∧
      ∀ before, (initial config loader).Uninterrupted before →
        let a := (initial config loader).play before
        (∀ o, .ended o ∈ a.requests →
          o = .cancelled ∨ o = .failure 0 t ∧ a.error = some (0, t)) ∧
        (a.registry = none ∧ ∀ e ∈ a.log, e.isReady = false) ∧
        ((a.asked = [] ∨ a.asked = config.packages) ∧ a.log <+: reports ∧
          (a.done = true → a.asked = config.packages ∧ a.log = reports)) ∧
        ∀ i r after, a.requests[i]? = some r → r.isOpen = true → a.Uninterrupted after →
          (∀ m ∈ after, m ≠ .leave ∧ m ≠ .withdraw i) → patience ≤ after.count .turn →
          (a.play after).requests[i]? = some (.ended (.failure 0 t)) := by
  intro loads
  obtain ⟨l, hl⟩ := Load.exists_decisive? orderly fails
  obtain ⟨hmem, hfails⟩ := Load.mem_of_decisive? hl
  obtain ⟨t, ht⟩ := Option.isSome_iff_exists.1 hfails
  have hfailsWith := Load.failsWith_of_failure? (orderly l hmem) ht
  have hfirst := firstOutcome_of_decisive? hl ht
  have shared : (firstOutcome config loader).IsShared := by
    rw [hfirst, Outcome.isShared_failure_iff]
    exact hfailsWith.kind
  have hreports : List.Forall₂ Load.ReportedBy
      ((Load.inEndOrder (loads.filter fun q => q.NotLater l)).filter Load.delivers)
      (Load.events (Load.endedBefore loads (l.delivery.ticks + 1))) := by
    rw [Load.endedBefore_succ_ticks]
    exact Load.reportedBy_events fun q hq => orderly q (Load.mem_of_mem_inEndOrder hq)
  refine ⟨l, t, _, Load.longest loads + 4, Load.failsFirst_of_decisive? orderly hl, hfailsWith,
    hreports, fun before hbefore => ?_⟩
  have hstart : (initial config loader).Steady config loader := steady_initial
  have h := hstart.play shared hbefore
  have hlog := h.log_of_recorded (hstart.recorded_play (Or.inl rfl) hl shared hbefore)
  refine ⟨fun o ho => ?_, ⟨h.registry_of_failure hfirst, fun e he => ?_⟩, hlog,
    fun i r after hr hopen hafter his hk => ?_⟩
  · rcases h.outcome_of_ended ho with hc | ⟨ho', hd⟩
    · exact Or.inl hc
    · exact Or.inr ⟨ho'.trans hfirst, h.error_of_failure hfirst hd⟩
  · exact Load.isReady_of_reportedBy hreports (hlog.2.1.subset he)
  · rw [← hfirst]
    exact h.getElem?_play_of_open shared hafter his hr hopen (h.turnsAhead_le.trans hk)

/-- A loader that takes as many ticks as the name of the package has characters. The packages `ab`
and `xy` fail, and all others deliver a mapping. -/
def unevenLoader : Loader := fun package _ =>
  { ticks := package.length
    result := if package = "ab" then .ok (.scalar .null)
      else if package = "xy" then .error (.plain .runtime "broken")
      else .ok (.map [(.str package, .scalar .null)]) }

theorem isOrderly_unevenLoader : Loader.IsOrderly unevenLoader := by
  intro package n
  unfold unevenLoader Delivery.IsOrderly
  split_ifs
  · trivial
  · rfl
  · intro k hk
    exact ⟨package, by simpa [Entries.keys] using hk⟩

/-- Of two packages that fail at once the one listed first is named, and its failure has no cause
since its loader did not fail. Reported are the package that is over before and the one that is over
at once, but not the one that is over later. -/
theorem first_failure_decides_unevenLoader :
    let config : Config := { packages := ["long", "pq", "ab", "xy", "u"] }
    let loads := Load.askAll unevenLoader [] config.packages
    (∀ l ∈ loads, l.delivery.IsOrderly) ∧ (∃ l ∈ loads, l.delivers = false) ∧
      ∃ t patience, t.newest.package = some "ab" ∧ t.cause? = none ∧
        let a := (initial config unevenLoader).play (.request :: List.replicate patience .turn)
        a.requests[0]? = some (.ended (.failure 0 t)) ∧
          a.log.map Event.package? = [some "u", some "pq"] ∧ a.asked = config.packages := by
  intro config loads
  have orderly : ∀ l ∈ loads, l.delivery.IsOrderly :=
    fun l hl => Load.isOrderly_of_mem_askAll isOrderly_unevenLoader hl
  have fails : ∃ l ∈ loads, l.delivers = false :=
    ⟨⟨"ab", unevenLoader "ab" 0⟩, by simp [loads, config, Load.askAll], rfl⟩
  obtain ⟨l, t, reports, patience, hfirst, hfails, hreports, h⟩ :=
    first_failure_decides config unevenLoader orderly fails
  have hl : l = ⟨"ab", unevenLoader "ab" 0⟩ := by
    obtain ⟨before, after, heq, hd, hbefore, _⟩ := hfirst
    rcases before with _ | ⟨_, _ | ⟨_, _ | ⟨b, _ | ⟨_, _ | ⟨_, before⟩⟩⟩⟩⟩
    · cases heq
      cases hd
    · cases heq
      cases hd
    · cases heq
      rfl
    · cases heq
      exact absurd (hbefore ⟨"ab", unevenLoader "ab" 0⟩ (by simp) rfl) (by decide)
    · cases heq
      cases hd
    · simp [config, Load.askAll] at heq
  subst hl
  obtain ⟨message, rfl⟩ := hfails
  refine ⟨orderly, fails, Trace.ofFailure (.inInitialization "ab" message), patience, rfl, rfl, ?_⟩
  intro a
  have hun : (initial config unevenLoader).Uninterrupted
      (.request :: List.replicate patience .turn) :=
    ⟨by simp, uninterrupted_replicate_turn patience⟩
  obtain ⟨_, _, _, hserved⟩ := h [.request] ⟨by simp, trivial⟩
  have hrequest := hserved 0 .scheduled _ rfl rfl hun.2
    (fun m hm => by simp [List.eq_of_mem_replicate hm]) (by simp)
  obtain ⟨hended, _, ⟨_, _, hdone⟩, _⟩ := h _ hun
  have herror := (hended _ (List.mem_of_getElem? hrequest)).resolve_left (by simp)
  obtain ⟨hasked, hlog⟩ := hdone (by rw [done, herror.2]; simp)
  refine ⟨hrequest, ?_, hasked⟩
  have hover : (Load.inEndOrder (loads.filter fun q =>
      q.NotLater ⟨"ab", unevenLoader "ab" 0⟩)).filter Load.delivers =
        [⟨"u", unevenLoader "u" 0⟩, ⟨"pq", unevenLoader "pq" 0⟩] := rfl
  rw [hlog, Load.package?_of_reportedBy hreports, hover]
  rfl

end Assembler
end CodeHighlight
