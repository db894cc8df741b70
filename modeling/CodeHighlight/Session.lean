import CodeHighlight.Assembly.Schedule
import CodeHighlight.Block
import CodeHighlight.Html.Backend
import CodeHighlight.Markdown.Document

/-!
# Sessions

A session highlights the documents of one run. Its options are checked when it is opened; its
packages are loaded when the first document asks for the registry, and all documents share that
registry. What the session reports is kept in order.

Documents can be submitted one after the other, each in a loop of its own, or together in one loop.
-/

namespace CodeHighlight
open Html (Document)
open Text (Wide)

/-- A session: the assembler of its registry, the room on the stack that its calls find, the name of
its reader of HTML, its Markdown extensions, its diagnostics, and what was said about its reader. -/
structure Session where
  assembler : Assembler
  stack : Stack
  reader : String := Html.Backend.builtin
  extensions : List String
  log : List Diagnostic := []
  warnings : List LogRecord := []

/-- The result of a request for the registry. -/
def Outcome.result : Outcome → Except Trace Registry
  | .registry _ r => .ok r
  | .failure _ t => .error t
  | .cancelled => .error (.plain .cancelled "")

namespace Session

/-- The options of a session. -/
def config (s : Session) : Config := s.assembler.config

/-- Open a session with a stack, options, a loader of packages, the name of a reader of HTML, and a
value that offers names of Markdown extensions. -/
def ofOptions (stack : Stack) (options : Config.Options) (loader : Loader) (reader : String)
    (extensions : Value) : Except Trace Session := do
  let config ← Config.validate options
  let extensions ← Markdown.resolve extensions .null
  pure { assembler := { config, loader }, stack, reader, extensions }

/-- Add diagnostics. -/
def report (s : Session) (ds : List Diagnostic) : Session := { s with log := s.log ++ ds }

/-- Go on with an assembler and report its new events. -/
def withAssembler (s : Session) (a : Assembler) : Session :=
  { s with assembler := a }.report ((a.log.drop s.assembler.log.length).map .event)

/-- Ask for the registry several times in one loop. -/
def requestAll (s : Session) (n : Nat) : List Outcome × Session :=
  let (sight, a) := s.assembler.perform (.get n)
  (sight.outcomes, s.withAssembler a)

/-- Ask for the registry. -/
def request (s : Session) : Except Trace Registry × Session :=
  let (outcomes, s) := s.requestAll 1
  ((outcomes.head?.getD .cancelled).result, s)

/-- Forget a build under way. -/
def cancel (s : Session) : Session := s.withAssembler s.assembler.cancel

/-- Highlight the blocks of a document once the result of a request is there. -/
def transformWith (s : Session) (registry : Except Trace Registry) (d : Document) :
    Document × Except Trace Report × Session :=
  match registry with
  | .error t => (d, .error t, s)
  | .ok r =>
    match Block.transform s.stack s.config r d with
    | (d, seen, some t) => (d, .error t, s.report seen.log)
    | (d, seen, none) => (d, .ok seen, s.report seen.log)

/-- Highlight the blocks of a document. -/
def transform (s : Session) (d : Document) : Document × Except Trace Report × Session :=
  let (registry, s) := s.request
  s.transformWith registry d

/-- Read a document; an unavailable reader is replaced, which is said once. -/
def parse (s : Session) (source : String) : Except Trace Document × Session :=
  let (reader, warnings) := Html.Backend.choose s.reader
  (Document.ofText source, { s with reader, warnings := s.warnings ++ warnings })

/-- Read several documents. -/
def parseAll (s : Session) : List String → List (Except Trace Document) × Session
  | [] => ([], s)
  | source :: rest =>
    let (d, s) := s.parse source
    let (ds, s) := s.parseAll rest
    (d :: ds, s)

/-- Highlight the blocks of a document that has been read, given its registry, and print it. -/
def finish (s : Session) (registry : Except Trace Registry) :
    Except Trace Document → Except Trace Wide × Session
  | .error t => (.error t, s)
  | .ok d =>
    match s.transformWith registry d with
    | (_, .error t, s) => (.error t, s)
    | (d, .ok _, s) => (.ok d.print, s)

/-- Highlight a document in HTML. -/
def highlightHtml (s : Session) (source : String) : Except Trace Wide × Session :=
  let (d, s) := s.parse source
  match d with
  | .error t => (.error t, s)
  | .ok d =>
    let (registry, s) := s.request
    s.finish registry (.ok d)

/-- Highlight a document in Markdown. -/
def highlightMarkdown (s : Session) (source : String) : Except Trace Wide × Session :=
  match Markdown.convert (some s.extensions) source with
  | .error t => (.error t, s)
  | .ok d => s.highlightHtml d.html

/-- Finish several documents, the first of which has the first of the given outcomes; those that
could not be read have none. -/
def finishAll (s : Session) : List Outcome → List (Except Trace Document) →
    List (Except Trace Wide) × Session
  | _, [] => ([], s)
  | outcomes, .error t :: rest =>
    let (results, s) := s.finishAll outcomes rest
    (.error t :: results, s)
  | outcomes, .ok d :: rest =>
    let (result, s) := s.finish (outcomes.head?.getD .cancelled).result (.ok d)
    let (results, s) := s.finishAll outcomes.tail rest
    (result :: results, s)

/-- A document has been read. -/
def isRead (d : Except Trace Document) : Bool :=
  match d with
  | .ok _ => true
  | .error _ => false

/-- Highlight several documents in HTML that are submitted together. -/
def highlightTogether (s : Session) (sources : List String) :
    List (Except Trace Wide) × Session :=
  let (documents, s) := s.parseAll sources
  let (outcomes, s) := s.requestAll (documents.countP isRead)
  s.finishAll outcomes documents

/-- The results of documents that are submitted together, or the failure of the first that has
none. -/
def gather (results : List (Except Trace Wide)) : Except Trace (List Wide) :=
  results.mapM id

/-- The failure to highlight a document inside a loop that is running already. -/
def nested : Trace := .plain .runtime "run_sync() cannot be used while an event loop is running"

end Session

end CodeHighlight
