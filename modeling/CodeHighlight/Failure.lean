import CodeHighlight.Text.Blank
import CodeHighlight.Text.Quoted

/-!
# Failures

What can go wrong, as data: a `Failure` has a kind and a wording, and a `Trace` is a failure
together with the failures it was raised from.

The links of a trace form a finite graph that may have cycles: each failure points to its cause, to
the context it was raised in, or to both, and the cause is preferred. `Trace.path` follows these
links from the newest failure to the end or to the first repetition. From it come the messages for
users (`messages`, `hint`) and the list of causes (`causeLines`).
-/

namespace CodeHighlight

/-- The kinds of failure. The first group comes from collaborators (grammars, loaders, files), the
second is the program's own. -/
inductive FailureKind where
  | runtime
  | value
  | type
  | key
  | attribute
  | importing
  | missingModule
  | system (name : String)
  | interrupt
  | lookup
  | recursion
  | decoding
  | encoding
  | validation
  | unknownLexer
  | yaml (name : String)
  | cancelled
  | general
  | configuration
  | grammarPackage
  | initialization
  | parse
  | markdown
  | plugin
  deriving DecidableEq, Repr

namespace FailureKind

/-- The name shown for a kind in diagnostics. -/
def name : FailureKind → String
  | .runtime => "RuntimeError"
  | .value => "ValueError"
  | .type => "TypeError"
  | .key => "KeyError"
  | .attribute => "AttributeError"
  | .importing => "ImportError"
  | .missingModule => "ModuleNotFoundError"
  | .system name => name
  | .interrupt => "KeyboardInterrupt"
  | .lookup => "LookupError"
  | .recursion => "RecursionError"
  | .decoding => "UnicodeDecodeError"
  | .encoding => "UnicodeEncodeError"
  | .validation => "ValidationError"
  | .unknownLexer => "ClassNotFound"
  | .yaml name => name
  | .cancelled => "CancelledError"
  | .general => "FencesmithError"
  | .configuration => "ConfigurationError"
  | .grammarPackage => "GrammarPackageError"
  | .initialization => "InitializationError"
  | .parse => "ParseFailure"
  | .markdown => "MarkdownConversionError"
  | .plugin => "PluginError"

/-- The kinds that have a name of their own. -/
def named : List FailureKind :=
  [.runtime, .value, .type, .key, .attribute, .importing, .missingModule, .interrupt, .lookup,
    .recursion, .decoding, .encoding, .validation, .unknownLexer, .cancelled, .general,
    .configuration, .grammarPackage, .initialization, .parse, .markdown, .plugin]

/-- The kind with a name; other names belong to failures of the system. -/
def ofName (name : String) : FailureKind :=
  (named.find? fun k => k.name == name).getD (.system name)

/-- Failures that handlers may catch; interruptions and cancellations are not among them. -/
def isOrdinary : FailureKind → Bool
  | .interrupt | .cancelled => false
  | _ => true

/-- The program's own failures, which its hosts report to the user. -/
def isOwn : FailureKind → Bool
  | .general | .configuration | .grammarPackage | .initialization | .parse => true
  | _ => false

/-- A module could not be imported. -/
def isImport : FailureKind → Bool
  | .importing | .missingModule => true
  | _ => false

/-- A value of the right type that is not acceptable. -/
def isValue : FailureKind → Bool
  | .value | .decoding | .encoding | .validation | .unknownLexer => true
  | _ => false

/-- The kinds that count as a defect of the syntax tree when they arise while it is walked. -/
def isTreeDefect : FailureKind → Bool
  | .recursion | .attribute | .type => true
  | k => k.isValue

end FailureKind

/-- A failure: its kind, its wording, and the package or language it concerns. -/
structure Failure where
  kind : FailureKind
  message : String
  package : Option String := none
  language : Option String := none
  deriving DecidableEq, Repr

namespace Failure

/-- A failure of a kind whose wording is given as it stands, except that a missing key is shown as
a quoted literal and a package failure starts with the name of the package. -/
def ofKind (kind : FailureKind) (message : String) (package language : Option String) : Failure :=
  match kind with
  | .key => ⟨.key, Text.Quoted.quote message, none, none⟩
  | .grammarPackage =>
    let name := package.getD ""
    ⟨.grammarPackage, "Grammar package '" ++ name ++ "': " ++ message, some name, none⟩
  | .initialization => ⟨.initialization, message, package, none⟩
  | .parse => ⟨.parse, message, none, language⟩
  | k => ⟨k, message, none, none⟩

/-- A failure without package and language. -/
def plain (kind : FailureKind) (message : String) : Failure := ofKind kind message none none

/-- A missing key. -/
def missingKey (key : String) : Failure := plain .key key

/-- A grammar package that cannot be imported or decoded. -/
def inPackage (package message : String) : Failure :=
  ofKind .grammarPackage message (some package) none

/-- The registry could not be built because of a package. -/
def inInitialization (package message : String) : Failure :=
  ⟨.initialization, message, some package, none⟩

/-- A block that could not be highlighted. -/
def inParse (language : Option String) (message : String) : Failure :=
  ⟨.parse, message, none, language⟩

end Failure

/-- A failure with the places of its cause and of the context it was raised in. -/
structure Link where
  failure : Failure
  cause : Option Nat := none
  context : Option Nat := none
  deriving DecidableEq, Repr

/-- A failure and the failures it was raised from: a finite graph and the place of the newest
failure. -/
structure Trace where
  links : List Link
  start : Nat
  deriving DecidableEq, Repr

namespace Trace

/-- A failure with neither cause nor context. -/
def ofFailure (f : Failure) : Trace := ⟨[⟨f, none, none⟩], 0⟩

/-- A failure of a kind, with neither cause nor context. -/
def plain (kind : FailureKind) (message : String) : Trace := ofFailure (.plain kind message)

/-- A failure raised from another one, which is its cause and its context. -/
def raiseFrom (cause : Trace) (f : Failure) : Trace :=
  ⟨cause.links ++ [⟨f, some cause.start, some cause.start⟩], cause.links.length⟩

/-- The failure at a place. -/
def failureAt? (t : Trace) (i : Nat) : Option Failure := t.links[i]?.map (·.failure)

/-- The newest failure. -/
def newest (t : Trace) : Failure := (t.failureAt? t.start).getD (.plain .runtime "")

/-- The kind of the newest failure. -/
def kind (t : Trace) : FailureKind := t.newest.kind

/-- The wording of the newest failure. -/
def message (t : Trace) : String := t.newest.message

/-- The failure that one was raised from: its cause, or else its context. -/
def next (t : Trace) (i : Nat) : Option Nat := t.links[i]?.bind fun l => l.cause <|> l.context

/-- Follow the links from a place to the end or to a place already seen, in at most the given number
of steps. -/
def follow (t : Trace) : Nat → List Nat → Option Nat → List Nat
  | 0, _, _ => []
  | _ + 1, _, none => []
  | n + 1, seen, some i =>
    if seen.contains i || t.links.length ≤ i then []
    else i :: t.follow n (i :: seen) (t.next i)

/-- The places from one on, each at most once. -/
def path (t : Trace) (from? : Option Nat) : List Nat := t.follow t.links.length [] from?

/-- The first line of a wording, without the blanks around it; nothing when it is blank. -/
def firstLine? (message : String) : Option String :=
  match Text.lines (Text.strip message.toList) with
  | [] => none
  | line :: _ =>
    let line := Text.strip line
    if line.isEmpty then none else some (String.ofList line)

/-- The messages of the path that starts with the newest failure, one line each, blank ones left
out. -/
def messages (t : Trace) : List String :=
  (t.path (some t.start)).filterMap fun i => (t.failureAt? i).bind (firstLine? ·.message)

/-- The most specific message of the path. -/
def hint (t : Trace) : Option String := t.messages.getLast?

/-- The places that are listed as causes: the path that starts with what the newest failure was
raised from. -/
def causes (t : Trace) : List Nat := t.path (t.next t.start)

/-- One line for each cause. -/
def causeLines (t : Trace) : List String :=
  t.causes.filterMap fun i =>
    (t.failureAt? i).map fun f => "  " ++ f.kind.name ++ ": " ++ f.message

/-- The cause of the newest failure. -/
def cause? (t : Trace) : Option Failure :=
  (t.links[t.start]?.bind (·.cause)).bind t.failureAt?

end Trace

end CodeHighlight
