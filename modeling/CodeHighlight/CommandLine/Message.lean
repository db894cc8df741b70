import CodeHighlight.CommandLine.Markup
import CodeHighlight.CommandLine.State
import CodeHighlight.Diagnostics
import CodeHighlight.Text.Columns

/-!
# Messages of the command line

What a command says on its error stream. A message has a level and may come from a failure; how much
of the failure is told depends on the verbosity of the state. Information is told from verbosity one
on, and the causes of a failure from two on.
-/

namespace CodeHighlight.CommandLine

/-- The details of a failure behind a message: its wording, unless the message has it already, its
kind, and what caused it. -/
def detailsOf (s : State) (message : String) (t : Trace) : List String :=
  if s.verbosity < 1 then []
  else
    let reason := Text.strip t.message.toList
    let causes := if 2 ≤ s.verbosity then t.causeLines else []
    (if reason.isEmpty || Text.contains reason message.toList then []
      else [String.ofList reason])
      ++ ["type: " ++ t.kind.name]
      ++ (if causes.isEmpty then [] else "caused by:" :: causes)

/-- A text as it is printed on a line of its own. -/
def printed (text : String) : String := Text.shown text ++ "\n"

/-- A message of a level that is not mere information. -/
def tell (s : State) (level message : String) (cause : Option Trace) : String :=
  let details := (cause.map (detailsOf s message)).getD []
  printed ("\n".intercalate ((level ++ ": " ++ message) :: details))

/-- Information, which is told only when it is asked for. -/
def inform (s : State) (message : String) : String :=
  if 1 ≤ s.verbosity then printed message else ""

/-- Information with markup, which is read only when it is asked for. -/
def informMarked (s : State) (message : String) : Except Trace String :=
  if 1 ≤ s.verbosity then (Markup.read message).map printed else .ok ""

/-- A message of a level. -/
def say (s : State) (level message : String) (cause : Option Trace) : String :=
  if level = "info" then inform s message else tell s level message cause

/-- A warning. -/
def warn (s : State) (message : String) (cause : Option Trace) : String :=
  tell s "warning" message cause

/-- An error. -/
def complain (s : State) (message : String) (cause : Option Trace) : String :=
  tell s "error" message cause

/-- A failure as an error. -/
def complainOf (s : State) (t : Trace) : String := complain s t.message (some t)

/-- What is said about a diagnostic. -/
def sayDiagnostic (s : State) : Diagnostic → Except Trace String
  | .warning message cause => .ok (warn s message cause)
  | .error message cause => .ok (complain s message cause)
  | .event e => do
    match ← e.message with
    | some message => pure (if message.isEmpty then "" else inform s message)
    | none => pure ""

/-- What is said about several diagnostics. -/
def sayAll (s : State) (ds : List Diagnostic) : String :=
  String.join (ds.map fun d => (sayDiagnostic s d).toOption.getD "")

/-- How an application ends: with a code that it chose, with a code that the system is asked to end
with, or with a failure. -/
inductive Ending where
  | exit (code : Int)
  | systemExit (code : Int)
  | failure (t : Trace)

/-- What is printed about an ending: a text, or the traceback of a failure. -/
inductive Notice where
  | text (s : String)
  | traceback (t : Trace)

/-- How a command ends whose application has ended. A failure is reported and gives the code one; an
interruption that is to be shown passes. -/
def conclude (s : State) : Ending → Ending × Notice
  | .failure t =>
    if t.kind = .interrupt then
      if s.showTracebacks then (.failure t, .text "")
      else (.exit 1, .text (complain s "Operation cancelled by user." (some t)))
    else if s.showTracebacks then (.exit 1, .traceback t)
    else (.exit 1, .text (complain s (t.hint.getD t.message) (some t)))
  | e => (e, .text "")

end CodeHighlight.CommandLine
