import CodeHighlight.CommandLine.Options
import CodeHighlight.Session

/-!
# Builds of a site

A site is built page by page. `SiteOptions.read` checks the options of a site by their types and
choices. A configuration opens a session for the pages behind it, unless highlighting is disabled or
the options are invalid; in both cases no earlier session goes on. All pages up to the next
configuration or the end of the build share the session, and without one they stay as they are.
-/

namespace CodeHighlight
open Text (Wide)

/-- The options of a site. -/
structure SiteOptions where
  enabled : Bool := true
  packages : List Value := [.str CommandLine.defaultPackage]
  whitelist : Option (List Value) := none
  precedence : Value := .str "last"
  classStyle : Value := .str "segments"

namespace SiteOptions

/-- The options under test, with the names of those that are rejected. -/
abbrev Check (α : Type) := α × List String

/-- An option by its name: `fallback` when it is missing or null, else as `read` says. -/
def option {α : Type} (es : Entries Key Value) (name : String) (fallback : α)
    (read : Value → Option α) : Check α :=
  match Entries.get? es (.str name) with
  | none => (fallback, [])
  | some v =>
    if v.isNull then (fallback, [])
    else
      match read v with
      | some x => (x, [])
      | none => (fallback, [name])

/-- A truth value. -/
def flag : Value → Option Bool
  | .scalar (.bool b) => some b
  | _ => none

/-- A list. -/
def listed : Value → Option (List Value)
  | .list xs => some xs
  | _ => none

/-- One of several texts. -/
def choice (names : List String) : Value → Option Value
  | .scalar (.str s) => if names.contains s then some (.str s) else none
  | _ => none

/-- The names of the options. -/
def names : List String :=
  ["enabled", "grammar_packages", "class_whitelist", "package_precedence", "class_style"]

/-- The names of unknown options, in order. -/
def unknown (es : Entries Key Value) : List String :=
  ((es.map fun e => e.1.text).filter fun k => !names.contains k).mergeSort fun a b => a ≤ b

/-- Read options; those that are rejected are named. -/
def read (es : Entries Key Value) : Check SiteOptions :=
  let (enabled, r₁) := option es "enabled" true flag
  let (packages, r₂) := option es "grammar_packages" [.str CommandLine.defaultPackage] listed
  let (whitelist, r₃) := option es "class_whitelist" none fun v => (listed v).map some
  let (precedence, r₄) := option es "package_precedence" (.str "last") (choice ["last", "first"])
  let (classStyle, r₅) := option es "class_style" (.str "segments") (choice ["segments", "joined"])
  (⟨enabled, packages, whitelist, precedence, classStyle⟩, r₁ ++ r₂ ++ r₃ ++ r₄ ++ r₅)

/-- The failure of options that are no mapping. -/
def noMapping (v : Value) : Trace :=
  .plain .configuration
    ("The configuration is invalid. Expected a key-value mapping (dict) but received: <class '"
      ++ v.typeName ++ "'>")

/-- The options of the session that a site asks for. -/
def sessionOptions (o : SiteOptions) : Entries Key Value :=
  [ (.str "grammar_packages", .list o.packages),
    (.str "package_precedence", o.precedence),
    (.str "class_style", o.classStyle) ]
    ++ o.whitelist.toList.map fun xs => (.str "class_whitelist", .list xs)

end SiteOptions

/-- A build: the room on the stack that it finds, the session of its pages, if there is one, and all
that was reported. -/
structure SiteBuild where
  stack : Stack
  session : Option Session := none
  log : List Diagnostic := []

namespace SiteBuild

/-- A failure as one of the build. -/
def failure (message : String) (t : Trace) : Trace :=
  t.raiseFrom (.plain .plugin ("fencesmith: " ++ message))

/-- Start over with options. -/
def configure (b : SiteBuild) (loader : Loader) (o : SiteOptions) : Except Trace Unit × SiteBuild :=
  if o.enabled then
    match Session.ofOptions b.stack (.given (.map o.sessionOptions)) loader Html.Backend.builtin
      .null with
    | .ok session => (.ok (), { b with session := some session })
    | .error t =>
      (.error (if t.kind = .configuration then failure t.message t else t),
        { b with session := none })
  else (.ok (), { b with session := none })

/-- Highlight a page, which has a path for messages. -/
def page (b : SiteBuild) (path html : String) : Except Trace Wide × SiteBuild :=
  match b.session with
  | none => (.ok ↑html, b)
  | some session =>
    let (result, next) := session.highlightHtml html
    let log := b.log ++ next.log.drop session.log.length
    (result.mapError fun t => if t.kind.isOwn then failure (path ++ ": " ++ t.message) t else t,
      { b with session := some next, log })

/-- End the build. -/
def finish (b : SiteBuild) : SiteBuild := { b with session := none }

/-- What has been reported, for readers who want no details. -/
def records (ds : List Diagnostic) : List LogRecord :=
  (ds.filterMap fun d => (d.record false).toOption).filter fun r => r.level != .debug

end SiteBuild

/-- Something that happens to a build. -/
inductive SiteEvent where
  | configure (o : SiteOptions)
  | page (path html : String)
  | finish

/-- What a build answers. -/
inductive SiteAnswer where
  | configured
  | page (html : Wide)
  | finished
  | failed (t : Trace)

namespace SiteBuild

/-- Let something happen to a build. -/
def step (loader : Loader) (b : SiteBuild) : SiteEvent → SiteAnswer × SiteBuild
  | .configure o =>
    match b.configure loader o with
    | (.ok (), b) => (.configured, b)
    | (.error t, b) => (.failed t, b)
  | .page path html =>
    match b.page path html with
    | (.ok html, b) => (.page html, b)
    | (.error t, b) => (.failed t, b)
  | .finish => (.finished, b.finish)

/-- Let several things happen to a build. -/
def run (loader : Loader) (b : SiteBuild) : List SiteEvent → List SiteAnswer × SiteBuild
  | [] => ([], b)
  | e :: rest =>
    let (answer, b) := b.step loader e
    let (answers, b) := run loader b rest
    (answer :: answers, b)

end SiteBuild

end CodeHighlight
