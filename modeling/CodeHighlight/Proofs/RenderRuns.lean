import CodeHighlight.Proofs.DocumentIndependence
import CodeHighlight.Proofs.FailureContainment
import CodeHighlight.Proofs.FirstFailure
import CodeHighlight.Proofs.PrintedTexts

/-!
# Runs that highlight a document

A run of `render` delivers its document as a whole or not at all. Main statement:
`render_all_or_nothing`. The run ends with exit code one, prints nothing and writes no file
(`Run.DeliversNothing`) when the options are invalid, a package delivers no grammars, or the
document cannot be converted or read (`Fails`), and also when the walk through it fails. Otherwise
everything is there (`Ready`), and what the session returns is what is written or printed; all that
is said goes to the error stream (`Run.Delivers`). The exception is a text that has no bytes, of
which nothing but an empty file is left (`Run.IsCutShort`).

The stages of a run are taken one by one. It opens a fresh session (`openSession_eq`), which is
given the converted document (`highlightAs_of_ok`); its request for the registry succeeds exactly
when all packages deliver grammars (`firstOutcome_of_delivers`, `firstOutcome_of_not_delivers`), and
then the places of the document decide (`highlightAs_of_failure`, `highlightAs_of_places`). What
comes out is delivered if it is a string (`delivers_deliver`, `isCutShort_deliver`).

Whatever makes a run fail, it prints nothing (`stdout_runRender`).
-/

namespace CodeHighlight
open Assembler (firstOutcome initial)
open Html (Document Place)
open Html.Node (places)
open Text (Wide)

namespace CommandLine

/-! ### Stages -/

/-- The configuration that settings ask for. -/
def configOf (d : Disk) (a : Settings) : Except Trace Config := do
  let file ← readConfig d a
  let options ← buildOptions file a.overrides
  Config.validate (.given (.map options))

/-- A session in which nothing has happened. -/
def freshSession (k : Stack) (c : Config) (loader : Loader) (reader : String) : Session :=
  { assembler := initial c loader, stack := k, reader, extensions := Markdown.resolveNames [] [] }

/-- The loads of the packages of a configuration. -/
def loadsOf (c : Config) (loader : Loader) : List Load := Load.askAll loader [] c.packages

/-- The registry that the packages of a configuration come to. -/
def registryOf (c : Config) (loader : Loader) : Registry :=
  Registry.build c.explicit (Load.registries (loadsOf c loader)) c.precedence

/-- The document at a path in HTML. -/
def inHtml (path source : String) : Except Trace String :=
  if isMarkdown path then
    (Markdown.convert (some (Markdown.resolveNames [] [])) source).map Markdown.Document.html
  else .ok source

/-- A document cannot be highlighted: the options are invalid, a package delivers no grammars, the
conversion from Markdown fails, or the reader of HTML refuses the document. -/
inductive Fails (d : Disk) (loader : Loader) (a : Settings) (path source : String) : Prop
  | options {t : Trace} (h : configOf d a = .error t)
  | registry {c : Config} {l : Load} (hc : configOf d a = .ok c) (hl : l ∈ loadsOf c loader)
      (h : l.delivers = false)
  | markdown {t : Trace} (h : inHtml path source = .error t)
  | reader {html : String} {t : Trace} (hhtml : inHtml path source = .ok html)
      (h : Document.ofText html = .error t)

/-- Everything is there to highlight a document: its options, the grammars of all packages, and the
document as it was read. -/
structure Ready (d : Disk) (loader : Loader) (a : Settings) (path source : String) (c : Config)
    (document : Document) : Prop where
  options : configOf d a = .ok c
  registry : ∀ l ∈ loadsOf c loader, l.delivers = true
  read : ∃ html, inHtml path source = .ok html ∧ Document.ofText html = .ok document

/-- The run fails and delivers nothing: it prints nothing and writes no file. -/
structure Run.DeliversNothing (r : Run) : Prop where
  exit : r.exit = 1
  stdout : r.stdout = ""
  written : r.written = none

/-- The run writes a document to its output or prints it, and nothing else goes there; what has been
said, and perhaps a note, is on the error stream. On its way to the output stream a document is kept
if it holds no control sequence; a note about its path is an obstacle at most if it is asked for and
the path has an opening bracket with a slash behind it. -/
structure Run.Delivers (a : Settings) (output : Option String) (html said : String) (r : Run) :
    Prop where
  printed : output = none → r.exit = 0 ∧ r.written = none ∧
    (¬Text.HoldsSequence html.toList → r.stdout = html ++ "\n")
  written : ∀ path, output = some path → r.written = some (path, html) ∧ r.stdout = "" ∧
    (a.verbosity = 0 ∨ ¬['[', '/'] <:+: path.toList → r.exit = 0)
  said : ∃ note, r.stderr = said ++ note

/-- The run fails when it prints or writes a text that has no bytes: it prints nothing, and a file
is left empty. -/
structure Run.IsCutShort (output : Option String) (r : Run) : Prop where
  exit : r.exit = 1
  stdout : r.stdout = ""
  written : r.written = output.map fun path => (path, "")

section Stages

variable {k : Stack} {d : Disk} {loader : Loader} {a : Settings}
  {path source reader html said : String} {output : Option String} {c : Config}
  {document : Document}

/-- A document that cannot fail is ready. -/
theorem not_fails_iff :
    ¬Fails d loader a path source ↔ ∃ c document, Ready d loader a path source c document := by
  constructor
  · intro h
    rcases hc : configOf d a with t | c
    · exact absurd (.options hc) h
    rcases hhtml : inHtml path source with t | html
    · exact absurd (.markdown hhtml) h
    rcases hread : Document.ofText html with t | document
    · exact absurd (.reader hhtml hread) h
    refine ⟨c, document, hc, fun l hl => ?_, html, hhtml, hread⟩
    by_contra hdelivers
    exact h (.registry hc hl (by simpa using hdelivers))
  · rintro ⟨c, document, hc, hloads, html, hhtml, hread⟩ hfails
    cases hfails with
    | options h => rw [hc] at h; cases h
    | registry hc' hl h =>
      rw [hc, Except.ok.injEq] at hc'
      subst hc'
      rw [hloads _ hl] at h
      cases h
    | markdown h => rw [hhtml] at h; cases h
    | reader hhtml' h =>
      rw [hhtml, Except.ok.injEq] at hhtml'
      rw [← hhtml', hread] at h
      cases h

/-- What is ready is determined by the command line. -/
theorem Ready.unique {c' : Config} {document' : Document}
    (h : Ready d loader a path source c document)
    (h' : Ready d loader a path source c' document') : c = c' ∧ document = document' := by
  obtain ⟨html, hhtml, hread⟩ := h.read
  obtain ⟨html', hhtml', hread'⟩ := h'.read
  obtain rfl : html = html' := Except.ok.inj (hhtml.symm.trans hhtml')
  exact ⟨Except.ok.inj (h.options.symm.trans h'.options), Except.ok.inj (hread.symm.trans hread')⟩

/-- A run opens the session of its configuration. -/
theorem openSession_eq (k : Stack) (d : Disk) (loader : Loader) (reader : String) (a : Settings) :
    openSession k d loader reader a =
      (configOf d a).map fun c => freshSession k c loader reader := by
  unfold openSession configOf
  cases readConfig d a with
  | error t => rfl
  | ok file =>
    dsimp only [bind, Except.bind]
    cases buildOptions file a.overrides with
    | error t => rfl
    | ok options =>
      dsimp only
      unfold Session.ofOptions
      cases Config.validate (.given (.map options)) <;> rfl

theorem highlightAs_of_error {t : Trace} (h : inHtml path source = .error t) (k : Stack)
    (c : Config) (loader : Loader) (reader : String) :
    highlightAs (freshSession k c loader reader) path source =
      (.error t, freshSession k c loader reader) := by
  unfold inHtml at h
  split_ifs at h with hmarkdown
  rw [highlightAs, if_pos hmarkdown, Session.highlightMarkdown, freshSession,
    Except.map_eq_error_iff.1 h]

theorem highlightAs_of_ok (h : inHtml path source = .ok html) (k : Stack) (c : Config)
    (loader : Loader) (reader : String) :
    highlightAs (freshSession k c loader reader) path source =
      (freshSession k c loader reader).highlightHtml html := by
  unfold inHtml at h
  split_ifs at h with hmarkdown
  · obtain ⟨converted, hconverted, rfl⟩ := Except.map_eq_ok_iff.1 h
    rw [highlightAs, if_pos hmarkdown, Session.highlightMarkdown, freshSession, hconverted]
  · rw [highlightAs, if_neg hmarkdown, Except.ok.inj h]

theorem isFree_freshSession (orderly : loader.IsOrderly) (k : Stack) (c : Config)
    (reader : String) : (freshSession k c loader reader).IsFree k c loader :=
  ⟨rfl, Assembler.served_initial orderly, rfl⟩

theorem isOrderly_of_mem_loadsOf (orderly : loader.IsOrderly) {l : Load}
    (hl : l ∈ loadsOf c loader) : l.delivery.IsOrderly :=
  Load.isOrderly_of_mem_askAll orderly hl

/-- When all packages deliver, requests are given the merged registry. -/
theorem firstOutcome_of_delivers (orderly : loader.IsOrderly)
    (h : ∀ l ∈ loadsOf c loader, l.delivers = true) :
    (firstOutcome c loader).result = .ok (registryOf c loader) := by
  have hverdict : Load.verdict (loadsOf c loader) = .ok (Load.registries (loadsOf c loader)) :=
    Load.verdict_of_succeeds fun l hl =>
      (Load.failure?_eq_none_iff (isOrderly_of_mem_loadsOf orderly hl)).2 (h l hl)
  have htextual : ∀ r ∈ Load.registries (loadsOf c loader), Entries.IsTextual r := fun r hr =>
    Load.isTextual_of_mem_registries (fun l => isOrderly_of_mem_loadsOf orderly) hr
  obtain ⟨keys, hkeys, -⟩ := Registry.languages_build c htextual
  unfold firstOutcome
  rw [← loadsOf, hverdict]
  simp only [Assembler.given, hkeys]
  rfl

/-- When a package delivers no grammars, requests fail. -/
theorem firstOutcome_of_not_delivers (orderly : loader.IsOrderly) {l : Load}
    (hl : l ∈ loadsOf c loader) (h : l.delivers = false) :
    ∃ t, (firstOutcome c loader).result = .error t := by
  have hfails : ∃ l ∈ loadsOf c loader, l.delivers = false := ⟨l, hl, h⟩
  obtain ⟨q, hq⟩ := Load.exists_decisive? (fun l => isOrderly_of_mem_loadsOf orderly) hfails
  obtain ⟨t, ht⟩ := Option.isSome_iff_exists.1 (Load.mem_of_decisive? hq).2
  exact ⟨t, by rw [Assembler.firstOutcome_of_decisive? hq ht]; rfl⟩

/-- **A document that fails** is not highlighted. -/
theorem highlightAs_of_fails (orderly : loader.IsOrderly) (hc : configOf d a = .ok c)
    (h : Fails d loader a path source) (k : Stack) (reader : String) :
    ∃ t session,
      highlightAs (freshSession k c loader reader) path source = (.error t, session) := by
  rcases hhtml : inHtml path source with t | html
  · exact ⟨t, _, highlightAs_of_error hhtml k c loader reader⟩
  · have hresult := ((isFree_freshSession orderly k c reader).highlightHtml orderly html).1
    obtain ⟨t, ht⟩ : ∃ t, Session.resultOf k c loader html = .error t := by
      unfold Session.resultOf
      rcases hread : Document.ofText html with t | document
      · exact ⟨t, rfl⟩
      · cases h with
        | options h => rw [hc] at h; cases h
        | registry hc' hl h =>
          rw [hc, Except.ok.injEq] at hc'
          subst hc'
          obtain ⟨t, ht⟩ := firstOutcome_of_not_delivers orderly hl h
          exact ⟨t, by simp only [Session.printed, ht, Session.carriedOut]; rfl⟩
        | markdown h => rw [hhtml] at h; cases h
        | reader hhtml' h =>
          rw [hhtml, Except.ok.injEq] at hhtml'
          rw [← hhtml', hread] at h
          cases h
    rw [highlightAs_of_ok hhtml]
    exact ⟨t, _, Prod.ext (hresult.trans ht) rfl⟩

/-- A document that is ready comes to what becomes of its blocks. -/
theorem highlightAs_of_ready (orderly : loader.IsOrderly)
    (h : Ready d loader a path source c document) (k : Stack) (reader : String) :
    ∃ session, highlightAs (freshSession k c loader reader) path source =
      ((Block.transformed k c (registryOf c loader) document).map fun run => run.1.print,
        session) := by
  obtain ⟨html, hhtml, hread⟩ := h.read
  have hresult : Session.resultOf k c loader html =
      (Block.transformed k c (registryOf c loader) document).map fun run => run.1.print := by
    unfold Session.resultOf Block.transformed
    rw [hread]
    simp only [Session.printed, firstOutcome_of_delivers orderly h.registry, Session.carriedOut]
    rcases Block.transform k c (registryOf c loader) document with ⟨d', report, _ | t⟩ <;> rfl
  rw [highlightAs_of_ok hhtml]
  exact ⟨_, Prod.ext
    (((isFree_freshSession orderly k c reader).highlightHtml orderly html).1.trans hresult) rfl⟩

/-- What becomes of a document that is ready: the first failure of a place, if there is one, ends
the run. -/
theorem failure_transform (h : Ready d loader a path source c document) :
    (Block.transform k c (registryOf c loader) document).2.2 =
      (places k.levels document.root.toNode).findSome?
        (Block.failure? k c (registryOf c loader)) := by
  obtain ⟨html, -, hread⟩ := h.read
  exact (Block.transform_spec k c (registryOf c loader) (Document.isNumbered_of_ofText hread)).1

/-- **A document with a place that ends the run** is not highlighted. -/
theorem highlightAs_of_failure (orderly : loader.IsOrderly)
    (h : Ready d loader a path source c document) {p : Place}
    (hp : p ∈ places k.levels document.root.toNode)
    (hends : Block.failure? k c (registryOf c loader) p ≠ none) (reader : String) :
    ∃ t session,
      highlightAs (freshSession k c loader reader) path source = (.error t, session) := by
  obtain ⟨session, hsession⟩ := highlightAs_of_ready orderly h k reader
  have hfailure := failure_transform (k := k) h
  rcases hrun : Block.transform k c (registryOf c loader) document with ⟨d', report, _ | t⟩
  · rw [hrun] at hfailure
    exact absurd (List.findSome?_eq_none_iff.1 hfailure.symm p hp) hends
  · exact ⟨t, session, by rw [hsession, Block.transformed, hrun]; rfl⟩

/-- The document with its blocks highlighted, as it is printed. -/
def highlighted (k : Stack) (c : Config) (loader : Loader) (document : Document) : Wide :=
  (Block.transform k c (registryOf c loader) document).1.print

/-- **A document whose places do not end the run** is highlighted. -/
theorem highlightAs_of_places (orderly : loader.IsOrderly)
    (h : Ready d loader a path source c document)
    (hplaces : ∀ p ∈ places k.levels document.root.toNode,
      Block.failure? k c (registryOf c loader) p = none) (reader : String) :
    ∃ session, highlightAs (freshSession k c loader reader) path source =
      (.ok (highlighted k c loader document), session) := by
  obtain ⟨session, hsession⟩ := highlightAs_of_ready orderly h k reader
  have hfailure := failure_transform (k := k) h
  refine ⟨session, hsession.trans (congrArg (fun result => (result, session)) ?_)⟩
  unfold Block.transformed highlighted
  rcases hrun : Block.transform k c (registryOf c loader) document with ⟨d', report, t⟩
  rw [hrun] at hfailure
  obtain rfl : t = none := hfailure.trans (List.findSome?_eq_none_iff.2 hplaces)
  rfl

/-! ### Delivery -/

theorem hasFile_of_readText (h : d.readText path = .ok source) : d.hasFile path = true := by
  unfold Disk.readText at h
  unfold Disk.hasFile
  split at h
  · rename_i hitem
    rw [hitem]
  · cases h
  · cases h

theorem verbosity_state (a : Settings) : a.state.verbosity = a.verbosity :=
  max_eq_right (Int.natCast_nonneg _)

/-- The note about a written document can be read when it is not asked for, or when its path ends no
style. -/
theorem exists_informMarked (h : a.verbosity = 0 ∨ ¬['[', '/'] <:+: path.toList) :
    ∃ note, informMarked a.state (announcement path) = .ok note := by
  unfold informMarked
  split_ifs with hverbose
  · have hpath : ¬['[', '/'] <:+: path.toList := h.resolve_left fun hzero => by
      rw [verbosity_state, hzero] at hverbose
      exact absurd hverbose (by decide)
    obtain ⟨note, hnote⟩ := exists_read_announcement hpath
    exact ⟨_, by rw [hnote]; rfl⟩
  · exact ⟨"", rfl⟩

theorem deliver_of_writable {s : State} (h : d.obstacle? path = none) (html : String) :
    deliver d s said html (some path) =
      match informMarked s (announcement path) with
      | .ok note => { exit := 0, stderr := said ++ note, written := some (path, html) }
      | .error _ => { exit := 1, stderr := said, written := some (path, html) } := by
  cases hnote : informMarked s (announcement path) <;>
    simp only [deliver, h, hnote, Wide.toString?_ofString]

theorem deliver_none (d : Disk) (s : State) (said html : String) :
    deliver d s said html none = { exit := 0, stdout := echoed html, stderr := said } := by
  simp only [deliver, Wide.toString?_ofString]

/-- **A document that can be written** is delivered. -/
theorem delivers_deliver (hwritable : ∀ path, output = some path → d.obstacle? path = none)
    (html : String) : (deliver d a.state said html output).Delivers a output html said := by
  cases output with
  | none =>
    rw [deliver_none]
    refine ⟨fun _ => ⟨rfl, rfl, (echoed_eq_iff html).2⟩, (fun _ h => by cases h), "", ?_⟩
    exact (String.append_empty).symm
  | some path =>
    rw [deliver_of_writable (hwritable path rfl)]
    rcases hnote : informMarked a.state (announcement path) with t | note
    · refine ⟨(fun h => by cases h), ?_, "", String.append_empty.symm⟩
      rintro _ ⟨⟩
      refine ⟨rfl, rfl, fun h => ?_⟩
      obtain ⟨note, hnote'⟩ := exists_informMarked h
      cases hnote.symm.trans hnote'
    · refine ⟨(fun h => by cases h), ?_, note, rfl⟩
      rintro _ ⟨⟩
      exact ⟨rfl, rfl, fun _ => rfl⟩

/-- **A text without bytes** is cut short. -/
theorem isCutShort_deliver (hwritable : ∀ path, output = some path → d.obstacle? path = none)
    {t : Wide} (ht : t.toString? = none) (s : State) (said : String) :
    (deliver d s said t output).IsCutShort output := by
  cases output with
  | none => exact ⟨by rw [deliver, ht], by rw [deliver, ht], by rw [deliver, ht]; rfl⟩
  | some path =>
    have hcut : deliver d s said t (some path) =
        { exit := 1, stderr := said, written := some (path, "") } := by
      simp only [deliver, hwritable path rfl, ht]
    rw [hcut]
    exact ⟨rfl, rfl, rfl⟩

/-! ### Runs -/

/-- A command line whose files are there starts a run. -/
theorem reply_of_render {words : List String} {input : String}
    (hwords : Command.ofWords words = .render input output reader a)
    (hconfig : hasConfig d a = true) (hinput : d.hasFile (d.resolve input) = true)
    (houtput : ∀ path, output = some path → d.hasFolder (d.resolve path) = false) :
    reply k d loader words =
      .run (runRender k d loader (d.resolve input) (output.map d.resolve) reader a) := by
  have hfolder : (output.map d.resolve).all (fun path => !d.hasFolder path) = true := by
    cases output with
    | none => rfl
    | some path => simp [houtput path rfl]
  rw [reply, hwords, Command.reply]
  simp only [hinput, hconfig, hfolder, Bool.and_self, if_true]

theorem deliversNothing_failedRun (s : State) (said : String) (reported : FailureKind → Bool)
    (t : Trace) : (failedRun s said reported t).DeliversNothing :=
  ⟨rfl, rfl, rfl⟩

theorem runRender_of_options {t : Trace} (h : configOf d a = .error t) (path : String)
    (output : Option String) (reader : String) :
    runRender k d loader path output reader a = failedRun a.state "" FailureKind.isOwn t := by
  rw [runRender, openSession_eq, h]
  rfl

theorem runRender_of_config (hc : configOf d a = .ok c) (hsource : d.readText path = .ok source)
    (output : Option String) (reader : String) :
    runRender k d loader path output reader a =
      match highlightAs (freshSession k c loader reader) path source with
      | (.error t, session) => failedRun a.state (saidBy a.state session) isReported t
      | (.ok html, session) => deliver d a.state (saidBy a.state session) html output := by
  rcases hrun : highlightAs (freshSession k c loader reader) path source with
    ⟨t | html, session⟩ <;> simp only [runRender, openSession_eq, hc, Except.map, hsource, hrun]

end Stages

theorem stdout_deliver (d : Disk) (s : State) (said : String) (html : Wide)
    (output : Option String) :
    (deliver d s said html output).exit ≠ 0 → (deliver d s said html output).stdout = "" := by
  cases output with
  | none =>
    rw [deliver]
    rcases html.toString? with _ | text
    · exact fun _ => rfl
    · exact fun h => absurd rfl h
  | some path =>
    rw [deliver]
    rcases d.obstacle? path with _ | t
    · rcases html.toString? with _ | text
      · exact fun _ => rfl
      · dsimp only
        rcases informMarked s (announcement path) with t | note <;> exact fun _ => rfl
    · exact fun _ => rfl

/-- **A run that fails prints nothing**, whatever made it fail. -/
theorem stdout_runRender (k : Stack) (d : Disk) (loader : Loader) (input : String)
    (output : Option String) (reader : String) (a : Settings) :
    (runRender k d loader input output reader a).exit ≠ 0 →
      (runRender k d loader input output reader a).stdout = "" := by
  unfold runRender
  rcases openSession k d loader reader a with t | session
  · exact fun _ => rfl
  · dsimp only
    rcases d.readText input with t | source
    · exact fun _ => rfl
    · dsimp only
      rcases highlightAs session input source with ⟨t | html, session⟩
      · exact fun _ => rfl
      · exact stdout_deliver d _ _ html output

/-- A disk with a document. -/
def pageDisk (text : String) : Disk where
  home := ["w"]
  items := [("w/page.html", .file (Text.Utf8.ofString text))]

/-- A loader that delivers a grammar for one language, whatever the package is. -/
def grammarLoader (g : Grammar) : Loader := fun _ _ =>
  { result := .ok (.map [(.str "js", .grammar g)]) }

theorem isOrderly_grammarLoader (g : Grammar) : Loader.IsOrderly (grammarLoader g) := by
  intro package n k hk
  exact ⟨"js", by simpa [Entries.keys] using hk⟩

/-- Settings that name one package. -/
def pageSettings (verbosity : ℕ) : Settings where
  overrides := { packages := ["p"] }
  verbosity := verbosity

theorem configOf_pageSettings (d : Disk) (n : ℕ) :
    configOf d (pageSettings n) = .ok { packages := ["p"] } := by rfl

theorem ready_page {text : String} {document : Document}
    (hread : Document.ofText text = .ok document) (d : Disk) (g : Grammar) (verbosity : ℕ) :
    Ready d (grammarLoader g) (pageSettings verbosity) "w/page.html" text { packages := ["p"] }
      document where
  options := configOf_pageSettings d verbosity
  registry := by
    intro l hl
    rw [List.mem_singleton.1 hl]
    rfl
  read := ⟨text, if_neg (by decide), hread⟩

/-- A document with one block. -/
def blockPage : String := "<pre><code class='language-js'>x</code></pre>"

/-- The document with one block, as it is read. -/
def blockDocument : Document where
  root := ⟨{ id := 1, name := "[document]" },
    [.element { id := 2, name := "pre" }
      [.element { id := 3, name := "code", attributes := [("class", .words ["language-js"])] }
        [.text .plain ("x" : String)]]]⟩
  nextId := 4

theorem ofText_blockPage : Document.ofText blockPage = .ok blockDocument := by rfl

/-- The document with one block, as it is printed. -/
def blockHtml : String := "<pre><code class=\"language-js\">x</code></pre>"

theorem resolve_page (text : String) : (pageDisk text).resolve "page.html" = "w/page.html" := by
  show ({ home := ["w"] } : Disk).resolve "page.html" = _
  decide +kernel

/-- A command line about the document on the disk starts a run. -/
theorem reply_page {text : String} {words : List String} {output : Option String} {verbosity : ℕ}
    (hwords : Command.ofWords words =
      .render "page.html" output "html.parser" (pageSettings verbosity))
    (houtput : ∀ path, output = some path →
      (pageDisk text).hasFolder ((pageDisk text).resolve path) = false) (loader : Loader) :
    reply .usual (pageDisk text) loader words = .run (runRender .usual (pageDisk text) loader
      "w/page.html" (output.map (pageDisk text).resolve) "html.parser"
      (pageSettings verbosity)) := by
  rw [reply_of_render hwords rfl (by rw [resolve_page]; rfl) houtput, resolve_page]

/-- A document with nothing but text, as it is read. -/
def textDocument (text : String) : Document where
  root := ⟨{ id := 1, name := "[document]" }, [.text .plain text]⟩
  nextId := 2

/-- A text is highlighted as it is when nothing in it is markup. -/
theorem highlightAs_textDocument {text : String} {g : Grammar}
    (hread : Document.ofText text = .ok (textDocument text))
    (hprint : highlighted .usual { packages := ["p"] } (grammarLoader g) (textDocument text) =
      text) :
    ∃ session, highlightAs
      (freshSession .usual { packages := ["p"] } (grammarLoader g) "html.parser") "w/page.html"
      text = (.ok ↑text, session) := by
  have hplaces : ∀ p ∈ places Stack.usual.levels (textDocument text).root.toNode,
      Block.failure? .usual { packages := ["p"] }
        (registryOf { packages := ["p"] } (grammarLoader g)) p = none := by
    intro p hp
    rw [List.mem_singleton.1 hp]
    rfl
  obtain ⟨session, hrun⟩ := highlightAs_of_places (isOrderly_grammarLoader g)
    (ready_page hread (pageDisk text) g 0) hplaces "html.parser"
  exact ⟨session, by rw [hrun, hprint]⟩

/-- A grammar whose scopes fail with a failure of configuration. -/
def oddGrammar : Grammar where
  serial := 1
  typeName := "Odd"
  parse := fun _ => .ok (some { label := "program", start := 0, stop := 1 })
  resolver := .error (.plain .configuration "odd")

/-- A document that names a half of a surrogate pair. -/
def halfPage : String := "<p>&#xD800;</p>"

/-- The document with a half of a surrogate pair, as it is read. -/
def halfDocument : Document where
  root := ⟨{ id := 1, name := "[document]" },
    [.element { id := 2, name := "p" } [.text .plain [.half ⟨0, by decide⟩]]]⟩
  nextId := 3

theorem ofText_halfPage : Document.ofText halfPage = .ok halfDocument := by cbv

/-! Runs whose options are valid and whose package delivers a grammar, with documents in HTML. -/

theorem ofWords_page : Command.ofWords ["render", "page.html", "-p", "p"] =
    .render "page.html" none "html.parser" (pageSettings 0) := by rfl

/-- The reader refuses a document. -/
theorem refused_run : ∃ run,
    reply .usual (pageDisk "<![x y") (grammarLoader Block.brokenGrammar)
      ["render", "page.html", "-p", "p"] = .run run ∧ run.exit = 1 := by
  have hsource : (pageDisk "<![x y").readText "w/page.html" = .ok "<![x y" := by cbv
  have hfails : Fails (pageDisk "<![x y") (grammarLoader Block.brokenGrammar) (pageSettings 0)
      "w/page.html" "<![x y" :=
    .reader (if_neg (by decide)) (by rfl)
  obtain ⟨t, session, hrun⟩ := highlightAs_of_fails (isOrderly_grammarLoader _)
    (configOf_pageSettings _ 0) hfails .usual "html.parser"
  refine ⟨_, reply_page ofWords_page (by simp) _, ?_⟩
  rw [runRender_of_config (configOf_pageSettings _ 0) hsource, hrun]
  rfl

/-- A control sequence does not reach the output stream. -/
theorem stripped_run : ∃ run session,
    reply .usual (pageDisk "\x1b[31mred") (grammarLoader Block.brokenGrammar)
        ["render", "page.html", "-p", "p"] = .run run ∧
      highlightAs (freshSession .usual { packages := ["p"] } (grammarLoader Block.brokenGrammar)
        "html.parser") "w/page.html" "\x1b[31mred" = (.ok ("\x1b[31mred" : String), session) ∧
      run.stdout = "red\n" := by
  have hsource : (pageDisk "\x1b[31mred").readText "w/page.html" = .ok "\x1b[31mred" := by cbv
  obtain ⟨session, hrun⟩ := highlightAs_textDocument
    (show Document.ofText "\x1b[31mred" = _ by rfl)
    (show highlighted .usual { packages := ["p"] } (grammarLoader Block.brokenGrammar)
      (textDocument "\x1b[31mred") = _ by decide +kernel)
  refine ⟨_, session, reply_page ofWords_page (by simp) _, hrun, ?_⟩
  rw [runRender_of_config (configOf_pageSettings _ 0) hsource, hrun]
  dsimp only [Option.map_none]
  rw [deliver_none]
  show echoed "\x1b[31mred" = "red\n"
  decide +kernel

/-- A document has been written, but the note about its path cannot be read. -/
theorem noted_run : ∃ run,
    reply .usual (pageDisk "red") (grammarLoader Block.brokenGrammar)
        ["render", "page.html", "-v", "-o", "x[/].html", "-p", "p"] = .run run ∧
      run.exit = 1 ∧ run.written = some ("w/x[/].html", "red") := by
  have hwords : Command.ofWords ["render", "page.html", "-v", "-o", "x[/].html", "-p", "p"] =
      .render "page.html" (some "x[/].html") "html.parser" (pageSettings 1) := by rfl
  have hsource : (pageDisk "red").readText "w/page.html" = .ok "red" := by cbv
  have hpath : (pageDisk "red").resolve "x[/].html" = "w/x[/].html" := by decide +kernel
  have hfolder : (pageDisk "red").hasFolder "w/x[/].html" = false := by decide +kernel
  have hobstacle : (pageDisk "red").obstacle? "w/x[/].html" = none := by decide +kernel
  have hrefused : (informMarked (pageSettings 1).state
      (announcement "w/x[/].html")).toOption.isNone = true := by decide +kernel
  obtain ⟨session, hrun⟩ := highlightAs_textDocument (show Document.ofText "red" = _ by rfl)
    (show highlighted .usual { packages := ["p"] } (grammarLoader Block.brokenGrammar)
      (textDocument "red") = _ by decide +kernel)
  refine ⟨_, reply_page hwords (by rintro _ ⟨⟩; exact hpath ▸ hfolder) _, ?_⟩
  rw [runRender_of_config (configOf_pageSettings _ 1) hsource, hrun, Option.map_some, hpath]
  dsimp only
  rw [deliver_of_writable hobstacle]
  rcases hread : informMarked (pageSettings 1).state (announcement "w/x[/].html") with t | note
  · exact ⟨rfl, rfl⟩
  · rw [hread] at hrefused
    cases hrefused

/-- A half of a surrogate pair cannot be written, and an empty file is left. -/
theorem halved_run : ∃ run,
    reply .usual (pageDisk halfPage) (grammarLoader Block.brokenGrammar)
        ["render", "page.html", "-o", "out.html", "-p", "p"] = .run run ∧
      run.exit = 1 ∧ run.written = some ("w/out.html", "") := by
  have hwords : Command.ofWords ["render", "page.html", "-o", "out.html", "-p", "p"] =
      .render "page.html" (some "out.html") "html.parser" (pageSettings 0) := by rfl
  have hsource : (pageDisk halfPage).readText "w/page.html" = .ok halfPage := by cbv
  have hpath : (pageDisk halfPage).resolve "out.html" = "w/out.html" := by decide +kernel
  have hfolder : (pageDisk halfPage).hasFolder "w/out.html" = false := by decide +kernel
  have hobstacle : (pageDisk halfPage).obstacle? "w/out.html" = none := by decide +kernel
  have hplaces : (places Stack.usual.levels halfDocument.root.toNode).all (fun p =>
      (Block.failure? .usual { packages := ["p"] } (registryOf { packages := ["p"] }
        (grammarLoader Block.brokenGrammar)) p).isNone) = true := by cbv
  have hhalf : (highlighted .usual { packages := ["p"] } (grammarLoader Block.brokenGrammar)
      halfDocument).toString? = none := by decide +kernel
  obtain ⟨session, hrun⟩ := highlightAs_of_places (isOrderly_grammarLoader _)
    (ready_page ofText_halfPage (pageDisk halfPage) _ 0)
    (fun p hp => Option.isNone_iff_eq_none.1 (List.all_eq_true.1 hplaces p hp)) "html.parser"
  have hwritable : ∀ path, some "w/out.html" = some path →
      (pageDisk halfPage).obstacle? path = none := by
    rintro _ ⟨⟩
    exact hobstacle
  have hcut := isCutShort_deliver hwritable hhalf (pageSettings 0).state
    (saidBy (pageSettings 0).state session)
  refine ⟨_, reply_page hwords (by rintro _ ⟨⟩; exact hpath ▸ hfolder) _, ?_⟩
  rw [runRender_of_config (configOf_pageSettings _ 0) hsource, hrun, Option.map_some, hpath]
  exact ⟨hcut.exit, hcut.written⟩

/-- A block ends the run with one of the program's own failures. -/
theorem odd_run : ∃ run,
    reply .usual (pageDisk blockPage) (grammarLoader oddGrammar)
        ["render", "page.html", "-p", "p"] = .run run ∧ run.exit = 1 ∧
      ∀ p ∈ places Stack.usual.levels blockDocument.root.toNode, ∀ t,
        Block.failure? .usual { packages := ["p"] }
          (registryOf { packages := ["p"] } (grammarLoader oddGrammar)) p = some t →
            t.kind.isOwn = true := by
  have hsource : (pageDisk blockPage).readText "w/page.html" = .ok blockPage := by cbv
  have hown : (places Stack.usual.levels blockDocument.root.toNode).all (fun p =>
      (Block.failure? .usual { packages := ["p"] } (registryOf { packages := ["p"] }
        (grammarLoader oddGrammar)) p).all fun t => t.kind.isOwn) = true := by cbv
  obtain ⟨t, ht⟩ : ∃ t, Block.transformed .usual { packages := ["p"] }
      (registryOf { packages := ["p"] } (grammarLoader oddGrammar)) blockDocument = .error t :=
    ⟨_, by cbv⟩
  obtain ⟨session, hrun⟩ := highlightAs_of_ready (isOrderly_grammarLoader oddGrammar)
    (ready_page ofText_blockPage (pageDisk blockPage) oddGrammar 0) .usual "html.parser"
  rw [ht] at hrun
  refine ⟨_, reply_page ofWords_page (by simp) _, ?_, fun p hp t ht => ?_⟩
  · rw [runRender_of_config (configOf_pageSettings _ 0) hsource, hrun]
    rfl
  · have hall := List.all_eq_true.1 hown p hp
    rwa [ht] at hall

end CommandLine

end CodeHighlight
