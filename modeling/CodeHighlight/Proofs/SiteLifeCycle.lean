import CodeHighlight.Packages.Loader
import CodeHighlight.Proofs.DocumentIndependence
import CodeHighlight.Proofs.Validation
import CodeHighlight.SiteBuild

/-!
# The life cycle of a site

Builds of a site come one after the other, and each of them has a session of its own or none. Main
statement: `site_life_cycle`. Whatever happened before, a session is live exactly when the last
configuration opened one and the build behind it has not ended. Pages without a session stay as they
are; with one, what a page comes to depends on the configuration and on the outcome of the first
request for the registry, not on the pages before it.

Two facts carry this. Each event changes what is live as `SiteEvent.after` says (`config?_step`), so
that a run of events does (`config?_run`). And unless loading is interrupted, a session is free
between the pages (`IsFree.step`, `IsFree.run`), so that each page is answered as the first one
would be (`run_pages`).
-/

namespace CodeHighlight
open Assembler (firstOutcome initial)
open Html (Document)

/-! ### The loader of packages -/

namespace Modules

/-- Without modules every package is missing, which is an ordinary failure. -/
theorem exists_load_nil (name : String) :
    ∃ t, load [] name = .error t ∧ t.kind.isOrdinary = true := by
  unfold load
  split_ifs
  · exact ⟨_, rfl, rfl⟩
  · exact ⟨_, rfl, rfl⟩
  · cases chain name with
    | nil => exact ⟨_, rfl, rfl⟩
    | cons outer rest => exact ⟨_, rfl, rfl⟩

end Modules

namespace Source

/-- The loader of packages delivers mappings under texts, or it fails. -/
theorem isOrderly_of_loader_eq {supply : Supply} {l : Loader} (hl : loader supply = l)
    (ordinary : l.IsOrdinary) : l.IsOrderly := by
  intro package n
  have hordinary := ordinary package n
  subst hl
  unfold Delivery.IsOrderly
  unfold loader at hordinary ⊢
  dsimp only
  cases h : load supply package with
  | error t =>
    refine hordinary t ?_
    rw [h]
    rfl
  | ok grammars =>
    show Entries.IsTextual (grammars.map fun e => (Key.str e.1, Value.grammar e.2))
    intro k hk
    simp only [Entries.keys, List.map_map, List.mem_map, Function.comp_apply] at hk
    obtain ⟨e, -, rfl⟩ := hk
    exact ⟨e.1, rfl⟩

theorem exists_importModule_nil (i : Identifier) :
    ∃ t, importModule [] i = .error t ∧ t.kind.isOrdinary = true := by
  obtain ⟨t, ht, hordinary⟩ := Modules.exists_load_nil i.moduleName
  unfold importModule
  split_ifs
  · exact ⟨_, rfl, rfl⟩
  · rw [ht]
    refine ⟨_, rfl, ?_⟩
    dsimp only
    split_ifs
    · rw [Trace.kind_raiseFrom]
      rfl
    · exact hordinary

theorem isOrdinary_loader_nil : Loader.IsOrdinary (loader {}) := by
  intro package n t ht
  obtain ⟨t', ht', hordinary⟩ := exists_importModule_nil (Identifier.ofText package)
  have hload : load {} package = .error t' := by
    unfold load find
    dsimp only
    rw [ht']
    rfl
  rw [loader, hload] at ht
  cases ht
  exact hordinary

end Source

/-! ### What is live -/

namespace SiteOptions

/-- The options of the session are valid. -/
def IsValid (o : SiteOptions) : Prop :=
  ∃ c, Config.validate (.given (.map o.sessionOptions)) = .ok c

/-- The configuration of the session that the options open, if they open one. -/
def opens? (o : SiteOptions) : Option Config :=
  if o.enabled then (Config.validate (.given (.map o.sessionOptions))).toOption else none

theorem isSome_opens?_iff {o : SiteOptions} :
    o.opens?.isSome = true ↔ o.enabled = true ∧ o.IsValid := by
  unfold opens? IsValid
  split_ifs with henabled
  · cases Config.validate (.given (.map o.sessionOptions)) <;> simp [Except.toOption, henabled]
  · simp [henabled]

end SiteOptions

namespace SiteEvent

/-- The event is a page. -/
def IsPage : SiteEvent → Prop
  | .page _ _ => True
  | _ => False

/-- The configuration of the session that is live after an event, given that of the one before. -/
def after (live : Option Config) : SiteEvent → Option Config
  | .configure o => o.opens?
  | .page _ _ => live
  | .finish => none

/-- Pages leave live what is live. -/
theorem foldl_after_of_isPage {live : Option Config} {pages : List SiteEvent}
    (h : ∀ e ∈ pages, e.IsPage) : pages.foldl after live = live := by
  induction pages with
  | nil => rfl
  | cons e pages ih =>
    rw [List.forall_mem_cons] at h
    cases e with
    | page path html => exact ih h.2
    | _ => exact h.1.elim

/-- The last configuration has these options, and only pages came after it. -/
def ConfiguredBy (es : List SiteEvent) (o : SiteOptions) : Prop :=
  ∃ before pages : List SiteEvent, es = before ++ SiteEvent.configure o :: pages ∧
    ∀ e ∈ pages, e.IsPage

theorem ConfiguredBy.foldl_after {es : List SiteEvent} {o : SiteOptions} (h : ConfiguredBy es o)
    (live : Option Config) : es.foldl after live = o.opens? := by
  obtain ⟨before, pages, rfl, hpages⟩ := h
  rw [List.foldl_append, List.foldl_cons, foldl_after_of_isPage hpages, after]

/-- What is live was live before a run of pages, or the last configuration opened it. -/
theorem foldl_after_eq_some {live : Option Config} {c : Config} {es : List SiteEvent}
    (h : es.foldl after live = some c) : (live = some c ∧ ∀ e ∈ es, e.IsPage) ∨
      ∃ o, ConfiguredBy es o ∧ o.opens? = some c := by
  induction es generalizing live with
  | nil => exact Or.inl ⟨h, by simp⟩
  | cons e es ih =>
    rcases ih h with ⟨hlive, hpages⟩ | ⟨o, ⟨before, pages, rfl, hpages⟩, ho⟩
    · cases e with
      | configure o => exact Or.inr ⟨o, ⟨[], es, rfl, hpages⟩, hlive⟩
      | page path html => exact Or.inl ⟨hlive, List.forall_mem_cons.2 ⟨trivial, hpages⟩⟩
      | finish => cases hlive
    · exact Or.inr ⟨o, ⟨e :: before, pages, rfl, hpages⟩, ho⟩

end SiteEvent

/-! ### Steps -/

namespace Session

theorem config_finish (s : Session) (registry : Except Trace Registry) (d : Except Trace Document) :
    (s.finish registry d).2.config = s.config := by
  cases d with
  | error t => rfl
  | ok d =>
    obtain ⟨ds, hds⟩ := s.transformWith_eq registry d
    unfold finish
    dsimp only
    rw [hds]
    cases (carriedOut s.stack s.config registry d).2 <;> rfl

/-- A document changes nothing about the options. -/
theorem config_highlightHtml (s : Session) (source : String) :
    (s.highlightHtml source).2.config = s.config := by
  unfold highlightHtml parse
  cases Document.ofText source with
  | error t => rfl
  | ok d => exact (config_finish _ _ _).trans (config_request _)

end Session

namespace SiteBuild

/-- What a page comes to in a session with a stack and a configuration whose requests have this
outcome. -/
def pageAnswer (k : Stack) (c : Config) (o : Outcome) (path html : String) : SiteAnswer :=
  match Session.printed k c o (Document.ofText html) with
  | .ok html => .page html
  | .error t => .failed (if t.kind.isOwn then failure (path ++ ": " ++ t.message) t else t)

/-- The configuration of the session that is live. -/
def config? (b : SiteBuild) : Option Config := b.session.map Session.config

/-- Nothing is under way in the session that is live, if there is one, and it has the stack of the
build. -/
def IsFree (loader : Loader) (b : SiteBuild) : Prop :=
  ∀ s, b.session = some s → s.IsFree b.stack s.config loader

variable {loader : Loader} {b : SiteBuild} {s : Session} {k : Stack}

theorem run_cons (loader : Loader) (b : SiteBuild) (e : SiteEvent) (es : List SiteEvent) :
    (b.run loader (e :: es)).1 = (b.step loader e).1 :: ((b.step loader e).2.run loader es).1 :=
  rfl

theorem kind_failure (message : String) (t : Trace) : (failure message t).kind = .plugin :=
  Trace.kind_raiseFrom _ _

/-- A session is opened with the options that it validates. -/
theorem ofOptions_eq (k : Stack) (options : Config.Options) (loader : Loader) :
    Session.ofOptions k options loader Html.Backend.builtin .null =
      (Config.validate options).map fun config =>
        { assembler := initial config loader
          stack := k
          extensions := Markdown.resolveNames [] [] } := by
  unfold Session.ofOptions
  cases Config.validate options <;> rfl

/-- A configuration answers with a failure of the build exactly when it is enabled and invalid. -/
theorem step_configure (loader : Loader) (b : SiteBuild) (o : SiteOptions) :
    (o.enabled = true → ¬ o.IsValid → ∃ t, b.step loader (.configure o) =
      (.failed t, { b with session := none }) ∧ t.kind = .plugin) ∧
    (∀ c, o.opens? = some c → ∃ s, b.step loader (.configure o) =
      (.configured, { b with session := some s }) ∧ s.stack = b.stack ∧
      s.assembler = initial c loader) ∧
    (o.enabled = false → b.step loader (.configure o) =
      (.configured, { b with session := none })) := by
  unfold SiteOptions.IsValid SiteOptions.opens? step configure
  dsimp only
  rw [ofOptions_eq]
  cases henabled : o.enabled with
  | false => simp
  | true =>
    cases hv : Config.validate (.given (.map o.sessionOptions)) with
    | error t =>
      have hkind := Config.kind_of_validate_error hv
      simp [Except.map, Except.toOption, hkind, kind_failure]
    | ok config => simp [Except.map, Except.toOption]

/-- A configuration opens a session that is fresh, or there is none behind it. -/
theorem session_configure (loader : Loader) (b : SiteBuild) (o : SiteOptions) :
    (o.opens? = none ∧ (b.step loader (.configure o)).2.session = none) ∨
      ∃ c s, o.opens? = some c ∧ (b.step loader (.configure o)).2.session = some s ∧
        s.stack = b.stack ∧ s.assembler = initial c loader := by
  obtain ⟨hinvalid, hopens, hdisabled⟩ := step_configure loader b o
  cases ho : o.opens? with
  | some c =>
    obtain ⟨s, hstep, hs⟩ := hopens c ho
    exact Or.inr ⟨c, s, rfl, by rw [hstep], hs⟩
  | none =>
    refine Or.inl ⟨rfl, ?_⟩
    cases henabled : o.enabled with
    | false => rw [hdisabled henabled]
    | true =>
      have hnot : ¬ o.IsValid := fun hvalid => by
        have hsome := SiteOptions.isSome_opens?_iff.2 ⟨henabled, hvalid⟩
        rw [ho] at hsome
        cases hsome
      obtain ⟨t, hstep, -⟩ := hinvalid henabled hnot
      rw [hstep]

theorem step_page_of_none (loader : Loader) (hs : b.session = none) (path html : String) :
    b.step loader (.page path html) = (.page html, b) := by
  simp only [step, page, hs]

theorem session_step_page (loader : Loader) (hs : b.session = some s) (path html : String) :
    (b.step loader (.page path html)).2.session = some (s.highlightHtml html).2 := by
  unfold step page
  rw [hs]
  dsimp only
  cases (s.highlightHtml html).1 <;> rfl

/-- **Every step** keeps the stack. -/
theorem stack_step (loader : Loader) (b : SiteBuild) (e : SiteEvent) :
    (b.step loader e).2.stack = b.stack := by
  cases e with
  | configure o =>
    unfold step configure
    dsimp only
    split_ifs
    · cases Session.ofOptions b.stack (.given (.map o.sessionOptions)) loader
        Html.Backend.builtin .null <;> rfl
    · rfl
  | page path html =>
    unfold step page
    cases b.session with
    | none => rfl
    | some s =>
      dsimp only
      cases (s.highlightHtml html).1 <;> rfl
  | finish => rfl

/-- **Every run** does. -/
theorem stack_run (loader : Loader) (b : SiteBuild) (es : List SiteEvent) :
    (b.run loader es).2.stack = b.stack := by
  induction es generalizing b with
  | nil => rfl
  | cons e es ih => exact (ih _).trans (stack_step loader b e)

/-- **Every step** leaves live what the event says. -/
theorem config?_step (loader : Loader) (b : SiteBuild) (e : SiteEvent) :
    (b.step loader e).2.config? = e.after b.config? := by
  unfold config?
  cases e with
  | configure o =>
    rcases session_configure loader b o with ⟨ho, hs⟩ | ⟨c, s, ho, hs, -, ha⟩
    · rw [hs, SiteEvent.after, ho]
      rfl
    · rw [hs, SiteEvent.after, ho, Option.map_some, Session.config, ha]
      rfl
  | page path html =>
    rw [SiteEvent.after]
    cases hs : b.session with
    | none => rw [step_page_of_none loader hs, hs]
    | some s =>
      rw [session_step_page loader hs, Option.map_some, Option.map_some, s.config_highlightHtml]
  | finish => rfl

/-- **Every run** does. -/
theorem config?_run (loader : Loader) (b : SiteBuild) (es : List SiteEvent) :
    (b.run loader es).2.config? = es.foldl SiteEvent.after b.config? := by
  induction es generalizing b with
  | nil => rfl
  | cons e es ih =>
    rw [List.foldl_cons, ← config?_step loader]
    exact ih _

/-- After any events a session is live exactly when the last configuration was enabled and valid and
only pages came after it. -/
theorem isSome_session_run_iff (k : Stack) (loader : Loader) (es : List SiteEvent) :
    (({ stack := k } : SiteBuild).run loader es).2.session.isSome = true ↔
      ∃ o, SiteEvent.ConfiguredBy es o ∧ o.enabled = true ∧ o.IsValid := by
  have hlive := config?_run loader { stack := k } es
  rw [← Option.isSome_map (f := Session.config), ← config?, hlive]
  constructor
  · intro h
    obtain ⟨c, hc⟩ := Option.isSome_iff_exists.1 h
    rcases SiteEvent.foldl_after_eq_some hc with ⟨h, -⟩ | ⟨o, hlast, ho⟩
    · cases h
    · exact ⟨o, hlast, SiteOptions.isSome_opens?_iff.1 (by rw [ho]; rfl)⟩
  · rintro ⟨o, hlast, hopens⟩
    rw [hlast.foldl_after]
    exact SiteOptions.isSome_opens?_iff.2 hopens

/-- A page in a session is answered by the outcome of its request. -/
theorem step_page_of_request (loader : Loader) (hs : b.session = some s) {o : Outcome}
    (ho : s.request.1 = o.result) (path html : String) :
    (b.step loader (.page path html)).1 = pageAnswer s.stack s.config o path html := by
  unfold step page pageAnswer
  rw [hs]
  dsimp only
  rw [Session.highlightHtml_of_request ho]
  cases Session.printed s.stack s.config o (Document.ofText html) <;> rfl

section Orderly

variable (orderly : loader.IsOrderly)
include orderly

theorem isFree_of_initial {c : Config} (hk : s.stack = k) (ha : s.assembler = initial c loader) :
    s.IsFree k s.config loader := by
  have hc : s.config = c := congrArg Assembler.config ha
  rw [hc]
  exact ⟨hk, ha ▸ Assembler.served_initial orderly, by rw [ha]; rfl⟩

/-- **Every step** leaves a session that is live free. -/
theorem IsFree.step (h : b.IsFree loader) (e : SiteEvent) : (b.step loader e).2.IsFree loader := by
  intro s' hs'
  cases e with
  | configure o =>
    rcases session_configure loader b o with ⟨-, hs⟩ | ⟨c, s, -, hs, hk, ha⟩
    · cases hs.symm.trans hs'
    · obtain rfl : s = s' := Option.some.inj (hs.symm.trans hs')
      rw [stack_step]
      exact isFree_of_initial orderly hk ha
  | page path html =>
    cases hs : b.session with
    | none =>
      rw [step_page_of_none loader hs] at hs' ⊢
      exact h s' hs'
    | some s =>
      obtain rfl := Option.some.inj ((session_step_page loader hs path html).symm.trans hs')
      rw [s.config_highlightHtml, stack_step]
      exact ((h s hs).highlightHtml orderly html).2
  | finish => cases hs'

/-- **Every run** does. -/
theorem IsFree.run (h : b.IsFree loader) (es : List SiteEvent) :
    (b.run loader es).2.IsFree loader := by
  induction es generalizing b with
  | nil => exact h
  | cons e es ih => exact ih (h.step orderly e)

/-- **The pages of a session** are answered one by one, each of them as if it were the only one, and
no package is asked for twice. -/
theorem run_pages (hs : b.session = some s) (hfree : s.IsFree k s.config loader)
    (pages : List (String × String)) :
    (b.run loader (pages.map fun p => .page p.1 p.2)).1 =
        pages.map (fun p => pageAnswer k s.config (firstOutcome s.config loader) p.1 p.2) ∧
      ∃ s', (b.run loader (pages.map fun p => .page p.1 p.2)).2.session = some s' ∧
        s'.config = s.config ∧
        (s'.assembler.asked = [] ∨ s'.assembler.asked = s.config.packages) := by
  induction pages generalizing b s with
  | nil => exact ⟨rfl, s, hs, rfl, hfree.served.trail.asked_eq orderly⟩
  | cons p pages ih =>
    have hanswer := step_page_of_request loader hs (hfree.request orderly).1 p.1 p.2
    rw [hfree.room] at hanswer
    obtain ⟨-, hnext⟩ := hfree.highlightHtml orderly p.2
    have hconfig := s.config_highlightHtml p.2
    obtain ⟨hanswers, hlast⟩ := ih (session_step_page loader hs p.1 p.2) (by rwa [hconfig])
    rw [hconfig] at hanswers hlast
    refine ⟨?_, hlast⟩
    rw [List.map_cons, List.map_cons, run_cons, hanswer, hanswers]

/-- The pages behind a configuration that opens a session. -/
theorem run_configure_pages (b : SiteBuild) {o : SiteOptions} {c : Config}
    (ho : o.opens? = some c) (pages : List (String × String)) :
    (b.run loader (.configure o :: pages.map fun p => .page p.1 p.2)).1 =
      .configured :: pages.map fun p => pageAnswer b.stack c (firstOutcome c loader) p.1 p.2 := by
  obtain ⟨s, hstep, hk, ha⟩ := (step_configure loader b o).2.1 c ho
  have hc : s.config = c := congrArg Assembler.config ha
  obtain ⟨hanswers, -⟩ := run_pages orderly (b := { b with session := some s }) rfl
    (isFree_of_initial orderly hk ha) pages
  rw [run_cons, hstep, hanswers, hc]

end Orderly

/-- When loading failed, a page that can be read fails with a failure of the build. -/
theorem pageAnswer_of_failure {n : ℕ} {t : Trace} (shared : (Outcome.failure n t).IsShared)
    (k : Stack) (c : Config) (path : String) {html : String} {d : Document}
    (hread : Document.ofText html = .ok d) :
    ∃ t', pageAnswer k c (.failure n t) path html = .failed t' ∧ t'.kind = .plugin := by
  have hown : t.kind.isOwn = true := by
    rw [Outcome.isShared_failure_iff.1 shared]
    rfl
  refine ⟨failure (path ++ ": " ++ t.message) t, ?_, kind_failure _ _⟩
  rw [pageAnswer, hread]
  show SiteAnswer.failed (if t.kind.isOwn then _ else t) = _
  rw [if_pos hown]

/-- A site whose only package is called `name`. -/
def siteOf (name : String) (enabled : Bool := true) : SiteOptions :=
  { enabled, packages := [.str name] }

theorem not_isValid_blank (enabled : Bool) : ¬ (siteOf " " enabled).IsValid := by
  rintro ⟨c, hc⟩
  cases hc

theorem opens?_missing : (siteOf "missing").opens? = some { packages := ["missing"] } := by rfl

/-- No registry comes from a package that is missing. -/
theorem exists_firstOutcome_missing :
    ∃ n t, firstOutcome { packages := ["missing"] } (Source.loader {}) = .failure n t := by
  have hfails : (firstOutcome { packages := ["missing"] }
      (Source.loader {})).result.toOption.isNone = true := by cbv
  rcases ho : firstOutcome { packages := ["missing"] } (Source.loader {}) with
    ⟨n, r⟩ | ⟨n, t⟩ | _
  · rw [ho] at hfails
    cases hfails
  · exact ⟨n, t, rfl⟩
  · exact absurd ho (Assembler.given_ne_cancelled _ _ _)

/-- **The life cycle of a site.** After any events:

* a session is live exactly when the last configuration was enabled and valid and only pages came
  after it, and it has the options of that configuration;
* an enabled configuration with invalid options fails with a failure of the build and leaves no
  session; any other configuration succeeds;
* without a session a page stays as it is, and nothing happens to the build;
* in a session whose packages load without an interruption one outcome, a registry or a failure of
  initialization, answers all pages up to the next configuration or the end of the build, each of
  them as if it were the only one. No package is asked for again. If that outcome is a failure, each
  page that can be read fails with a failure of the build. -/
theorem site_life_cycle (k : Stack) (supply : Supply) (es : List SiteEvent) :
    let loader := Source.loader supply
    let b := (({ stack := k } : SiteBuild).run loader es).2
    (b.session.isSome = true ↔
      ∃ o, SiteEvent.ConfiguredBy es o ∧ o.enabled = true ∧ o.IsValid) ∧
    (∀ o : SiteOptions,
      (o.enabled = true → ¬ o.IsValid → ∃ t, b.step loader (.configure o) =
        (.failed t, { b with session := none }) ∧ t.kind = .plugin) ∧
      (o.enabled = false ∨ o.IsValid → (b.step loader (.configure o)).1 = .configured)) ∧
    (b.session = none → ∀ path html, b.step loader (.page path html) = (.page html, b)) ∧
    ∀ s, b.session = some s →
      (∀ o, SiteEvent.ConfiguredBy es o → o.opens? = some s.config) ∧
      (Loader.IsOrdinary loader →
        let o := firstOutcome s.config loader
        o.IsShared ∧
        (∀ pages : List (String × String),
          let last := b.run loader (pages.map fun p => .page p.1 p.2)
          last.1 = pages.map (fun p => pageAnswer k s.config o p.1 p.2) ∧
          ∃ s', last.2.session = some s' ∧ s'.config = s.config ∧
            (s'.assembler.asked = [] ∨ s'.assembler.asked = s.config.packages)) ∧
        ∀ n t, o = .failure n t → ∀ path html d, Document.ofText html = .ok d →
          ∃ t', pageAnswer k s.config o path html = .failed t' ∧ t'.kind = .plugin) := by
  dsimp only
  -- from here on it hardly matters where the packages come from
  generalize hl : Source.loader supply = loader
  refine ⟨isSome_session_run_iff k loader es, fun o => ⟨(step_configure loader _ o).1, fun h => ?_⟩,
    step_page_of_none loader, fun s hs => ⟨fun o hlast => ?_, fun ordinary => ?_⟩⟩
  · obtain ⟨-, hopens, hdisabled⟩ := step_configure loader
      (({ stack := k } : SiteBuild).run loader es).2 o
    cases henabled : o.enabled with
    | false => rw [hdisabled henabled]
    | true =>
      have hvalid : o.IsValid := h.resolve_left (by rw [henabled]; decide)
      obtain ⟨c, hc⟩ := Option.isSome_iff_exists.1
        (SiteOptions.isSome_opens?_iff.2 ⟨henabled, hvalid⟩)
      obtain ⟨s, hstep, -⟩ := hopens c hc
      rw [hstep]
  · rw [← hlast.foldl_after none]
    exact (config?_run loader { stack := k } es).symm.trans
      (congrArg (Option.map Session.config) hs)
  · have orderly := Source.isOrderly_of_loader_eq hl ordinary
    have hfree : (({ stack := k } : SiteBuild).run loader es).2.IsFree loader :=
      IsFree.run orderly (fun _ h => by cases h) es
    have hshared := Assembler.isShared_firstOutcome s.config orderly
    have hroom := hfree s hs
    rw [stack_run] at hroom
    refine ⟨hshared, run_pages orderly hs hroom, fun n t ho path html d hread => ?_⟩
    rw [ho] at hshared ⊢
    exact pageAnswer_of_failure hshared k s.config path hread

/-- A site whose package is missing has a session, in which all pages that can be read fail. -/
theorem site_life_cycle_missingPackage :
    let loader := Source.loader {}
    let b := (({ stack := .usual } : SiteBuild).run loader
      [.page "a.md" "x", .configure (siteOf "missing"), .page "b.md" "y"]).2
    Loader.IsOrdinary loader ∧
    (∃ s, b.session = some s ∧ s.config = { packages := ["missing"] } ∧
      ∀ path html d, Document.ofText html = .ok d →
        ∃ t, (b.run loader [.page path html]).1 = [.failed t] ∧ t.kind = .plugin) ∧
    (siteOf " ").enabled = true ∧ ¬ (siteOf " ").IsValid ∧
    ∃ t, b.step loader (.configure (siteOf " ")) = (.failed t, { b with session := none }) ∧
      t.kind = .plugin := by
  have hcycle := site_life_cycle .usual {}
    [.page "a.md" "x", .configure (siteOf "missing"), .page "b.md" "y"]
  have hordinary := Source.isOrdinary_loader_nil
  obtain ⟨n, t, ho⟩ := exists_firstOutcome_missing
  dsimp only at hcycle ⊢
  generalize Source.loader {} = loader at hcycle hordinary ho
  generalize (({ stack := .usual } : SiteBuild).run loader _).2 = b at hcycle
  obtain ⟨hlive, hconfigure, -, hpages⟩ := hcycle
  have hlast : SiteEvent.ConfiguredBy
      [.page "a.md" "x", .configure (siteOf "missing"), .page "b.md" "y"] (siteOf "missing") :=
    ⟨[.page "a.md" "x"], [.page "b.md" "y"], rfl, by simp [SiteEvent.IsPage]⟩
  refine ⟨hordinary, ?_, rfl, not_isValid_blank true,
    (hconfigure (siteOf " ")).1 rfl (not_isValid_blank true)⟩
  obtain ⟨s, hs⟩ := Option.isSome_iff_exists.1 (hlive.2
    ⟨_, hlast, SiteOptions.isSome_opens?_iff.1 (by rw [opens?_missing]; rfl)⟩)
  obtain ⟨hoptions, hanswers⟩ := hpages s hs
  have hc : s.config = { packages := ["missing"] } :=
    Option.some.inj ((hoptions _ hlast).symm.trans opens?_missing)
  obtain ⟨-, hrun, hfailed⟩ := hanswers hordinary
  refine ⟨s, hs, hc, fun path html d hread => ?_⟩
  obtain ⟨t', ht', hkind⟩ := hfailed n t (hc ▸ ho) path html d hread
  exact ⟨t', (hrun [(path, html)]).1.trans (congrArg (fun answer => [answer]) ht'), hkind⟩

/-- The supply of a package whose loading is interrupted. -/
def haltingSupply : Supply :=
  { modules := [("halted", .ok
      { members := [("load_grammars", .function (.error (.plain .interrupt "")))] })] }

theorem opens?_halted : (siteOf "halted").opens? = some { packages := ["halted"] } := by rfl

theorem outcomes_halted : ((initial { packages := ["halted"] }
    (Source.loader haltingSupply)).perform (.get 1)).1.outcomes =
      [.failure 0 (.plain .interrupt "")] := by cbv

/-- Options that are invalid are accepted where highlighting is disabled. When a package is missing,
a page that cannot be read fails with a failure of the reader; and an interruption that stops a
package stops the page. -/
theorem sites_fail_otherwise :
    (¬ (siteOf " " false).IsValid ∧
      (({ stack := .usual } : SiteBuild).step (Source.loader {})
        (.configure (siteOf " " false))).1 = .configured) ∧
    (∃ t t', (({ stack := .usual } : SiteBuild).run (Source.loader {})
        [.configure (siteOf "missing"), .page "a.md" "x", .page "b.md" "<![x y"]).1 =
          [.configured, .failed t, .failed t'] ∧
      t.kind = .plugin ∧ t'.kind = .system "ParserRejectedMarkup") ∧
    ∃ t, (({ stack := .usual } : SiteBuild).run (Source.loader haltingSupply)
        [.configure (siteOf "halted"), .page "a.md" "x"]).1 = [.configured, .failed t] ∧
      t.kind = .interrupt := by
  refine ⟨⟨not_isValid_blank false, rfl⟩, ?_, ?_⟩
  · have hordinary := Source.isOrdinary_loader_nil
    obtain ⟨n, t, ho⟩ := exists_firstOutcome_missing
    generalize hl : Source.loader {} = loader at hordinary ho
    have orderly := Source.isOrderly_of_loader_eq hl hordinary
    have hshared := Assembler.isShared_firstOutcome { packages := ["missing"] } orderly
    have hanswers := run_configure_pages orderly { stack := .usual } opens?_missing
      [("a.md", "x"), ("b.md", "<![x y")]
    rw [ho] at hshared hanswers
    obtain ⟨t', ht', hkind⟩ := pageAnswer_of_failure hshared .usual
      { packages := ["missing"] } "a.md" (show Document.ofText "x" = .ok _ by rfl)
    obtain ⟨t'', hread, hkind'⟩ : ∃ t'', Document.ofText "<![x y" = .error t'' ∧
      t''.kind = .system "ParserRejectedMarkup" := ⟨_, by rfl, by rfl⟩
    have hrejected : pageAnswer .usual { packages := ["missing"] } (.failure n t) "b.md" "<![x y" =
        .failed t'' := by
      rw [pageAnswer, hread]
      show SiteAnswer.failed (if t''.kind.isOwn then _ else t'') = _
      rw [hkind']
      rfl
    refine ⟨t', t'', ?_, hkind, hkind'⟩
    simp only [List.map_cons, List.map_nil] at hanswers
    rw [hanswers, ht', hrejected]
  · obtain ⟨s, hstep, -, ha⟩ := (step_configure (Source.loader haltingSupply) { stack := .usual }
      (siteOf "halted")).2.1 _ opens?_halted
    have ho : s.request.1 = (Outcome.failure 0 (.plain .interrupt "")).result := by
      show ((s.assembler.perform (.get 1)).1.outcomes.head?.getD .cancelled).result = _
      rw [ha, outcomes_halted]
      rfl
    have hanswer := step_page_of_request (b := { stack := .usual, session := some s })
      (Source.loader haltingSupply) rfl ho "a.md" "x"
    refine ⟨.plain .interrupt "", ?_, rfl⟩
    rw [run_cons, hstep, run_cons, hanswer]
    rfl

end SiteBuild
end CodeHighlight
