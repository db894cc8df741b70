import CodeHighlight.CommandLine.Arguments
import CodeHighlight.CommandLine.Disk
import CodeHighlight.CommandLine.Message
import CodeHighlight.CommandLine.Table
import CodeHighlight.Packages.Builtin
import CodeHighlight.Session
import CodeHighlight.Text.Sequences

/-!
# Runs of the command line

What the program does for a command line, given a disk and a loader of packages: its exit code, its
two streams, and the file that it writes.

A command line is refused when it cannot be read or names files that are not there. Rendering writes
the highlighted document to its output or prints it, and nothing else goes there; what is said about
the run goes to the error stream. A run that fails writes no document; when the document has no
bytes, an empty file is left. The program's own failures are reported; others end the run without a
word.
-/

namespace CodeHighlight.CommandLine
open Text (Wide)

/-- What a run leaves behind: its exit code, the texts of its streams, and a file with its text. -/
structure Run where
  exit : Nat
  stdout : String := ""
  stderr : String := ""
  written : Option (String × String) := none
  deriving DecidableEq, Repr

/-- The answer to a command line. -/
inductive Reply where
  | refused
  | help
  | run (r : Run)

/-- The state that settings ask for. -/
def Settings.state (a : Settings) : State :=
  ({} : State).withFlags (some a.verbosity) (some a.debug)

/-- What has been said about a session. -/
def saidBy (s : State) (session : Session) : String :=
  String.join (session.warnings.map fun w => w.message ++ "\n") ++ sayAll s session.log

/-- A run that fails; the failure is reported if it is of a kind to report. -/
def failedRun (s : State) (said : String) (reported : FailureKind → Bool) (t : Trace) : Run where
  exit := 1
  stderr := said ++ if reported t.kind then complainOf s t else ""

/-- The path and the text of the configuration. -/
def readConfig (d : Disk) (a : Settings) : Except Trace (Option (String × String)) :=
  match a.config with
  | none => .ok none
  | some path => (d.readText (d.resolve path)).map fun text => some (d.resolve path, text)

/-- Open the session that settings ask for. -/
def openSession (k : Stack) (d : Disk) (loader : Loader) (reader : String) (a : Settings) :
    Except Trace Session := do
  let config ← readConfig d a
  let options ← buildOptions config a.overrides
  Session.ofOptions k (.given (.map options)) loader reader .null

/-- A text as it is printed on the output stream. -/
def echoed (text : String) : String := Text.withoutSequences text ++ "\n"

/-- What is said when a document has been written. -/
def announcement (path : String) : String := "[cyan]Highlighted HTML written to[/] " ++ path

/-- Write a document, or print it when no output is named. A document that has no bytes ends the
run; a file has been made for it by then. -/
def deliver (d : Disk) (s : State) (said : String) (html : Wide) : Option String → Run
  | none =>
    match html.toString? with
    | some text => { exit := 0, stdout := echoed text, stderr := said }
    | none => { exit := 1, stderr := said }
  | some path =>
    match d.obstacle? path with
    | some t =>
      { exit := 1
        stderr := said ++
          complain s ("Unable to write '" ++ path ++ "': " ++ t.message) (some t) }
    | none =>
      match html.toString? with
      | none => { exit := 1, stderr := said, written := some (path, "") }
      | some text =>
        match informMarked s (announcement path) with
        | .ok note => { exit := 0, stderr := said ++ note, written := some (path, text) }
        | .error _ => { exit := 1, stderr := said, written := some (path, text) }

/-- The failures of highlighting that are reported. -/
def isReported (k : FailureKind) : Bool := k.isOwn || k = .markdown

/-- Highlight a document by the suffix of its path. -/
def highlightAs (session : Session) (path source : String) : Except Trace Wide × Session :=
  if isMarkdown path then session.highlightMarkdown source else session.highlightHtml source

/-- Highlight the document at a resolved path. -/
def runRender (k : Stack) (d : Disk) (loader : Loader) (input : String) (output : Option String)
    (reader : String) (a : Settings) : Run :=
  match openSession k d loader reader a with
  | .error t => failedRun a.state "" FailureKind.isOwn t
  | .ok session =>
    match d.readText input with
    | .error t =>
      { exit := 1
        stderr := complain a.state ("Unable to read '" ++ input ++ "': " ++ t.message) (some t) }
    | .ok source =>
      match highlightAs session input source with
      | (.error t, session) => failedRun a.state (saidBy a.state session) isReported t
      | (.ok html, session) => deliver d a.state (saidBy a.state session) html output

/-- The rows of the table of languages. -/
def languageRows (r : Registry) : Except Trace (List (List String)) := do
  if r.isEmpty then pure [["-", "No grammars registered"]]
  else
    let keys ← Registry.languages r
    keys.mapM fun k => do
      let g ← Registry.find r k
      pure [k.text, g.description]

/-- The table of languages. -/
def languageTable (rows : List (List String)) : Table where
  title := "Available Languages"
  header := ["Key", "Grammar"]
  rows := rows

/-- Show the table of languages. -/
def runLanguages (k : Stack) (d : Disk) (loader : Loader) (a : Settings) : Run :=
  match openSession k d loader Html.Backend.builtin a with
  | .error t => failedRun a.state "" FailureKind.isOwn t
  | .ok session =>
    let (registry, session) := session.request
    let said := saidBy a.state session
    match registry with
    | .error t => failedRun a.state said FailureKind.isOwn t
    | .ok r =>
      match languageRows r with
      | .error t => failedRun a.state said (fun _ => false) t
      | .ok rows => { exit := 0, stdout := (languageTable rows).text, stderr := said }

/-- The configuration that settings name is a file. -/
def hasConfig (d : Disk) (a : Settings) : Bool :=
  a.config.all fun path => d.hasFile (d.resolve path)

/-- The answer to a command. -/
def Command.reply (k : Stack) (d : Disk) (loader : Loader) : Command → Reply
  | .refused => .refused
  | .help => .help
  | .version => .run { exit := 0, stdout := echoed Builtin.version }
  | .render input output reader a =>
    let input := d.resolve input
    let output := output.map d.resolve
    if d.hasFile input && hasConfig d a && output.all (fun path => !d.hasFolder path) then
      .run (runRender k d loader input output reader a)
    else .refused
  | .languages a => if hasConfig d a then .run (runLanguages k d loader a) else .refused

/-- The answer to a command line. -/
def reply (k : Stack) (d : Disk) (loader : Loader) (words : List String) : Reply :=
  (Command.ofWords words).reply k d loader

end CodeHighlight.CommandLine
