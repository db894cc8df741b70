import CodeHighlight.Proofs.LoadOrder
import Mathlib.Data.List.MinMax

/-!
# The verdict of a build

Whatever a loader delivers, the loads of a build come to a verdict: of those that fail the first
that is over decides (`Load.decisive?`), and otherwise the grammars of all of them are merged.

A turn of the first build brings it to its next stage or publishes the verdict (`IsUnderway.turn`),
so that a request that waits for it is given the outcome of the verdict in the end
(`IsUnderway.exists_requests_play`). This outcome can be shared unless it is a failure to put keys
in order (`Load.kind_of_failure?`, `isShared_given_ok_iff`).
-/

namespace CodeHighlight

/-- A loader that is not interrupted: its failures are ordinary ones, and it delivers anything
else. -/
def Loader.IsOrdinary (loader : Loader) : Prop :=
  ∀ package n t, (loader package n).result = .error t → t.kind.isOrdinary = true

namespace Load
variable {loads : List Load}

/-! ### What decides a build -/

/-- The failure of a load that fails. -/
def failure? (l : Load) : Option Trace :=
  match l.outcome with
  | .ok _ => none
  | .error t => some t

/-- The load that decides a build in which loads fail: of those that fail, the first that is over,
in listed order when several are over at once. -/
def decisive? (loads : List Load) : Option Load :=
  (loads.filter fun l => l.failure?.isSome).argmin fun l => l.delivery.ticks

/-- What loads come to: the failure that decides, or the grammars of all of them in listed order. -/
def verdict (loads : List Load) : Except Trace (List Registry) :=
  match (decisive? loads).bind failure? with
  | some t => .error t
  | none => .ok (registries loads)

theorem failure?_eq_none_of_firstFailure? (h : firstFailure? loads = none) {l : Load}
    (hl : l ∈ loads) : l.failure? = none :=
  List.findSome?_eq_none_iff.1 h l hl

theorem firstFailure?_cons (q : Load) (loads : List Load) :
    firstFailure? (q :: loads) = q.failure?.or (firstFailure? loads) := by
  show List.findSome? failure? (q :: loads) = _
  rw [List.findSome?_cons]
  rcases q.failure? with _ | t <;> rfl

/-- A load that succeeds decides nothing. -/
theorem decisive?_cons_of_eq_none {q : Load} (h : q.failure? = none) :
    decisive? (q :: loads) = decisive? loads := by
  unfold decisive?
  rw [List.filter_cons_of_neg (by simp [h])]

/-- A load that fails decides unless one behind it is over earlier. -/
theorem decisive?_cons_of_eq_some {q : Load} {t : Trace} (h : q.failure? = some t) :
    decisive? (q :: loads) = some (match decisive? loads with
      | none => q
      | some c => if c.delivery.ticks < q.delivery.ticks then c else q) := by
  have hcons : decisive? (q :: loads) = Option.casesOn (decisive? loads) (some q)
      fun c => if c.delivery.ticks < q.delivery.ticks then some c else some q := by
    unfold decisive?
    rw [List.filter_cons_of_pos (by simp [h]), List.argmin_cons]
  rw [hcons]
  rcases decisive? loads with _ | c
  · rfl
  · exact (apply_ite some _ _ _).symm

theorem mem_of_decisive? {l : Load} (h : decisive? loads = some l) :
    l ∈ loads ∧ l.failure?.isSome = true :=
  List.mem_filter.1 (List.argmin_mem h)

/-- The first failure among the loads of a tick decides when no load fails before. -/
theorem decisive?_of_firstFailure? {elapsed : ℕ} {t : Trace}
    (hbefore : ∀ l ∈ loads, l.delivery.ticks < elapsed → l.failure? = none)
    (ht : firstFailure? (loads.filter fun l => l.delivery.ticks == elapsed) = some t) :
    ∃ l, decisive? loads = some l ∧ l.delivery.ticks = elapsed ∧ l.failure? = some t := by
  induction loads with
  | nil => cases ht
  | cons q loads ih =>
    obtain ⟨hq, hrest⟩ := List.forall_mem_cons.1 hbefore
    rcases hf : q.failure? with _ | t'
    · rw [decisive?_cons_of_eq_none hf]
      refine ih hrest ?_
      by_cases hnow : q.delivery.ticks = elapsed
      · rwa [List.filter_cons_of_pos (by simp [hnow]), firstFailure?_cons, hf,
          Option.none_or] at ht
      · rwa [List.filter_cons_of_neg (by simp [hnow])] at ht
    · have hle : elapsed ≤ q.delivery.ticks := by
        by_contra hlt
        rw [hq (by omega)] at hf
        cases hf
      rw [decisive?_cons_of_eq_some hf]
      rcases hle.eq_or_lt with hnow | hlater
      · -- it is listed first, and none of those behind it is over earlier
        rw [List.filter_cons_of_pos (by simp [hnow]), firstFailure?_cons, hf, Option.some_or,
          Option.some.injEq] at ht
        refine ⟨q, congrArg some ?_, hnow.symm, by rw [hf, ht]⟩
        rcases hc : decisive? loads with _ | c
        · rfl
        · obtain ⟨hmem, hfails⟩ := mem_of_decisive? hc
          refine if_neg fun hlt => ?_
          rw [hrest c hmem (by omega)] at hfails
          cases hfails
      · rw [List.filter_cons_of_neg (by simp; omega)] at ht
        obtain ⟨l, hl, hticks, hlt⟩ := ih hrest ht
        refine ⟨l, congrArg some ?_, hticks, hlt⟩
        rw [hl]
        exact if_pos (by omega)

theorem decisive?_eq_none (h : ∀ l ∈ loads, l.failure? = none) : decisive? loads = none := by
  unfold decisive?
  rw [List.argmin_eq_none, List.filter_eq_nil_iff]
  intro l hl
  simp [h l hl]

theorem verdict_of_firstFailure? {elapsed : ℕ} {t : Trace}
    (hbefore : ∀ l ∈ loads, l.delivery.ticks < elapsed → l.failure? = none)
    (ht : firstFailure? (loads.filter fun l => l.delivery.ticks == elapsed) = some t) :
    verdict loads = .error t := by
  obtain ⟨l, hl, _, hlt⟩ := decisive?_of_firstFailure? hbefore ht
  rw [verdict, hl, Option.bind_some, hlt]

theorem verdict_of_succeeds (h : ∀ l ∈ loads, l.failure? = none) :
    verdict loads = .ok (registries loads) := by
  rw [verdict, decisive?_eq_none h, Option.bind_none]

/-- A load that an ordinary loader fails is of the kind that is kept, unless it delivered a
mapping. -/
theorem kind_of_failure? {l : Load}
    (ordinary : ∀ t, l.delivery.result = .error t → t.kind.isOrdinary = true) {t : Trace}
    (ht : l.failure? = some t) :
    t.kind = .initialization ↔ ∀ entries, l.delivery.result ≠ .ok (.map entries) := by
  unfold failure? outcome at ht
  rcases hr : l.delivery.result with t' | v
  · rw [hr] at ht
    cases ht
    refine iff_of_true ?_ (by simp)
    rw [loaderFailure, if_pos (ordinary t' hr)]
    exact Trace.kind_raiseFrom _ _
  · rw [hr] at ht
    cases v with
    | map entries =>
      refine iff_of_false ?_ (by simp)
      dsimp only at ht
      rcases hs : Key.sort (Entries.keys entries) with t' | keys
      · rw [hs] at ht
        cases ht
        rw [Key.kind_of_sort hs]
        simp
      · rw [hs] at ht
        cases ht
    | _ =>
      cases ht
      exact iff_of_true rfl (by simp)

theorem ordinary_of_mem_askAll {loader : Loader} (ordinary : loader.IsOrdinary)
    {asked packages : List String} {l : Load} (hl : l ∈ askAll loader asked packages) {t : Trace}
    (ht : l.delivery.result = .error t) : t.kind.isOrdinary = true := by
  induction packages generalizing asked with
  | nil => cases hl
  | cons p packages ih =>
    rcases List.mem_cons.1 hl with rfl | hl
    · exact ordinary _ _ _ ht
    · exact ih hl

end Load

theorem Outcome.isShared_registry (n : ℕ) (r : Registry) : (Outcome.registry n r).IsShared :=
  Or.inl ⟨n, r, rfl⟩

theorem Outcome.isShared_failure_iff {n : ℕ} {t : Trace} :
    (Outcome.failure n t).IsShared ↔ t.kind = .initialization := by
  refine ⟨?_, fun hk => Or.inr ⟨n, t, rfl, hk⟩⟩
  rintro (⟨_, _, h⟩ | ⟨_, _, h, hk⟩)
  · cases h
  · cases h
    exact hk

namespace Assembler
variable {a : Assembler} {config : Config} {loader : Loader}

/-! ### The outcome of a verdict -/

/-- What those who wait for a build are given when it comes to a verdict. -/
def given (config : Config) (build : ℕ) : Except Trace (List Registry) → Outcome
  | .error t => .failure build t
  | .ok loaded =>
    match Registry.languages (Registry.build config.explicit loaded config.precedence) with
    | .ok _ => .registry build (Registry.build config.explicit loaded config.precedence)
    | .error t => .failure build t

/-- What those who wait for the first build are given. -/
def firstOutcome (config : Config) (loader : Loader) : Outcome :=
  given config 0 (Load.verdict (Load.askAll loader [] config.packages))

theorem given_ne_cancelled (config : Config) (n : ℕ) (result : Except Trace (List Registry)) :
    given config n result ≠ .cancelled := by
  unfold given
  cases result with
  | error t => simp
  | ok loaded =>
    dsimp only
    split <;> simp

theorem requests_publish (n : ℕ) (result : Except Trace (List Registry)) :
    (a.publish n result).requests = (a.answerAll n (given a.config n result)).requests := by
  unfold publish given
  cases result with
  | error t =>
    dsimp only
    split_ifs <;> rfl
  | ok loaded =>
    dsimp only
    rcases Registry.languages (Registry.build a.config.explicit loaded a.config.precedence)
      with t | keys <;> rfl

/-- The outcome of loads that succeed can be shared exactly when the keys of their registry can be
put in order. -/
theorem isShared_given_ok_iff {n : ℕ} {loaded : List Registry} :
    (given config n (.ok loaded)).IsShared ↔ ∃ keys, Registry.languages
      (Registry.build config.explicit loaded config.precedence) = .ok keys := by
  rcases hlang : Registry.languages (Registry.build config.explicit loaded config.precedence)
    with t | keys
  · have hgiven : given config n (.ok loaded) = .failure n t := by simp only [given, hlang]
    rw [hgiven, Outcome.isShared_failure_iff, Key.kind_of_sort hlang]
    simp
  · have hgiven : given config n (.ok loaded) =
        .registry n (Registry.build config.explicit loaded config.precedence) := by
      simp only [given, hlang]
    rw [hgiven]
    exact iff_of_true (Outcome.isShared_registry _ _) ⟨keys, rfl⟩

/-! ### A build under way -/

/-- What the first build has done at a stage. -/
def ComesTo (a : Assembler) : Stage → Prop
  | .scheduled => a.asked = []
  | .loading elapsed loads =>
    loads = a.loadsAfter [] ∧ ∀ l ∈ loads, l.delivery.ticks ≤ elapsed → l.failure? = none
  | .failing t => Load.verdict (a.loadsAfter []) = .error t
  | .settled result => Load.verdict (a.loadsAfter []) = result

/-- The first build is under way. -/
structure IsUnderway (a : Assembler) : Prop where
  registry : a.registry = none
  error : a.error = none
  late : a.late = none
  stage : ∃ s, a.task = .running 0 s ∧ a.ComesTo s

/-- Once the loads of a tick have finished, the build goes on or its verdict is known. -/
theorem comesTo_finishLoads (elapsed : ℕ)
    (hbefore : ∀ l ∈ a.loadsAfter [], l.delivery.ticks < elapsed → l.failure? = none) :
    ∃ log s, a.finishLoads 0 elapsed (a.loadsAfter []) =
      { a with log := log, task := .running 0 s } ∧ a.ComesTo s := by
  unfold finishLoads
  refine ⟨_, _, rfl, ?_⟩
  rcases hf : Load.firstFailure?
    ((a.loadsAfter []).filter fun l => l.delivery.ticks == elapsed) with _ | t
  · have hupto : ∀ l ∈ a.loadsAfter [], l.delivery.ticks ≤ elapsed → l.failure? = none := by
      intro l hl hle
      rcases hle.lt_or_eq with hlt | heq
      · exact hbefore l hl hlt
      · exact Load.failure?_eq_none_of_firstFailure? hf (List.mem_filter.2 ⟨hl, by simp [heq]⟩)
    dsimp only
    split_ifs with hfin
    · have hle : ∀ l ∈ a.loadsAfter [], l.delivery.ticks ≤ elapsed := by simpa using hfin
      exact Load.verdict_of_succeeds fun l hl => hupto l hl (hle l hl)
    · exact ⟨rfl, hupto⟩
  · have hverdict := Load.verdict_of_firstFailure? hbefore hf
    dsimp only
    split_ifs
    · exact hverdict
    · exact hverdict

/-- **A build that goes on for one turn** comes to its next stage, or its verdict is published. -/
theorem advance_of_comesTo {s : Stage} (hs : a.ComesTo s) :
    (∃ asked log s', a.advance 0 s =
        { a with asked := asked, log := log, task := .running 0 s' } ∧
        ComesTo { a with asked := asked, log := log, task := .running 0 s' } s') ∨
      a.advance 0 s = a.publish 0 (Load.verdict (a.loadsAfter [])) := by
  rcases s with _ | ⟨elapsed, loads⟩ | t | result
  · by_cases hp : a.config.packages.isEmpty = true
    · have hnil : a.loadsAfter [] = [] := by rw [loadsAfter, List.isEmpty_iff.1 hp, Load.askAll]
      rw [advance_scheduled_of_isEmpty hp, hnil]
      exact Or.inr rfl
    · rw [advance_scheduled hp, show a.asked = [] from hs]
      obtain ⟨log, s', heq, hs'⟩ := comesTo_finishLoads (a := a.asking) 0
        fun l _ hlt => absurd hlt (Nat.not_lt_zero _)
      exact Or.inl ⟨_, log, s', heq, hs'⟩
  · obtain ⟨rfl, hupto⟩ := hs
    obtain ⟨log, s', heq, hs'⟩ := comesTo_finishLoads (elapsed + 1)
      fun l hl hlt => hupto l hl (Nat.lt_succ_iff.1 hlt)
    exact Or.inl ⟨a.asked, log, s', heq, hs'⟩
  · exact Or.inl ⟨a.asked, a.log, .settled (.error t), rfl, hs⟩
  · rw [show Load.verdict (a.loadsAfter []) = result from hs]
    exact Or.inr rfl

theorem IsUnderway.of_core_eq {b : Assembler} (h : a.IsUnderway) (hc : b.core = a.core) :
    b.IsUnderway := by
  have hb : b.core.IsUnderway := by
    rw [hc]
    exact ⟨h.registry, h.error, h.late, h.stage⟩
  exact ⟨hb.registry, hb.error, hb.late, hb.stage⟩

theorem IsUnderway.isBuilding (h : a.IsUnderway) : a.IsBuilding := by
  obtain ⟨s, ht, _⟩ := h.stage
  exact ⟨0, s, ht⟩

theorem IsUnderway.begun (h : a.IsUnderway) : a.begun = .waiting 0 := by
  obtain ⟨s, ht, _⟩ := h.stage
  exact begun_of_running h.registry h.error ht

/-- **A turn of a build under way** brings it to its next stage, or its verdict is published. The
requests that have not begun wait for it. -/
theorem IsUnderway.turn (h : a.IsUnderway) :
    let b : Assembler := { a with requests := a.requests.map (beginAs (.waiting 0)) }
    (a.turn.IsUnderway ∧ a.turn.requests = b.requests) ∨
      a.turn = b.publish 0 (Load.verdict (a.loadsAfter [])) := by
  intro b
  obtain ⟨s, ht, hs⟩ := h.stage
  have hturn : a.turn = b.advance 0 s := turn_eq_advance h.registry h.error h.late ht
  rw [hturn]
  rcases advance_of_comesTo (a := b) hs with ⟨asked, log, s', heq, hs'⟩ | heq
  · rw [heq]
    exact Or.inl ⟨⟨h.registry, h.error, h.late, s', rfl, hs'⟩, rfl⟩
  · exact Or.inr heq

theorem IsUnderway.remaining_le (h : a.IsUnderway) :
    a.remaining ≤ Load.longest (a.loadsAfter []) + 3 := by
  obtain ⟨s, ht, hs⟩ := h.stage
  unfold remaining
  rw [ht]
  rcases s with _ | ⟨elapsed, loads⟩ | t | result
  · rw [show a.asked = [] from hs]
  · obtain ⟨rfl, _⟩ := hs
    dsimp only
    omega
  · dsimp only
    omega
  · dsimp only
    omega

/-- The only request of a build under way is given the outcome of its verdict after some turns. -/
theorem IsUnderway.exists_requests_play (h : a.IsUnderway) (hr : a.requests = [.waiting 0]) :
    ∃ k, (a.play (List.replicate k .turn)).requests =
      [.ended (firstOutcome a.config a.loader)] := by
  -- every turn leaves fewer to come
  obtain ⟨n, hn⟩ : ∃ n, a.remaining ≤ n := ⟨_, le_rfl⟩
  induction n generalizing a with
  | zero =>
    have := remaining_turn h.late h.isBuilding
    omega
  | succ n ih =>
    have hless := remaining_turn h.late h.isBuilding
    rcases h.turn with ⟨hturn, hreq⟩ | heq
    · obtain ⟨k, hk⟩ := ih hturn (by rw [hreq, hr]; rfl) (by omega)
      have horigin : a.turn.origin = a.origin := origin_turn
      refine ⟨k + 1, ?_⟩
      rw [List.replicate_succ, play_cons]
      rw [show a.turn.config = a.config from congrArg Prod.fst horigin,
        show a.turn.loader = a.loader from congrArg Prod.snd horigin] at hk
      exact hk
    · refine ⟨1, ?_⟩
      show a.turn.requests = _
      rw [heq, requests_publish, hr]
      rfl

end Assembler

end CodeHighlight
