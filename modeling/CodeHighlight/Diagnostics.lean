import CodeHighlight.Data.Value

/-!
# Diagnostics

What a run reports: warnings and errors, each with the failure behind it, and events with a name
and a payload. Some events have a message for users.
-/

namespace CodeHighlight

/-- An event with its payload. -/
structure Event where
  name : String
  payload : Entries Key Value

namespace Event

/-- The keys of languages as a list. -/
def languageList (languages : List Key) : Value := .list (languages.map Value.scalar)

/-- A package has been loaded. -/
def packageLoaded (package : String) (languages : List Key) : Event :=
  ⟨"grammar_package_loaded",
    [(.str "package", .str package), (.str "languages", languageList languages)]⟩

/-- The registry is complete. -/
def registryReady (languages : List Key) : Event :=
  ⟨"registry_ready", [(.str "languages", languageList languages)]⟩

/-- A block could not be highlighted. -/
def highlightSkipped (language reason : String) : Event :=
  ⟨"highlight_skipped", [(.str "language", .str language), (.str "reason", .str reason)]⟩

/-- A value of the payload that counts as present. -/
def present? (e : Event) (name : String) : Option Value :=
  (Entries.get? e.payload (.str name)).bind fun v => if v.isTruthy then some v else none

/-- The text of a value of the payload, or what is shown in its place. -/
def textOr (e : Event) (name fallback : String) : String :=
  ((e.present? name).map Value.text).getD fallback

/-- A failure of a type. -/
def typeFailure {α : Type} (message : String) : Except Trace α := .error (.plain .type message)

/-- The items of the languages of the payload; a text has its characters as items. -/
def languages (e : Event) : Except Trace (List Value) :=
  match e.present? "languages" with
  | none => .ok []
  | some (.scalar (.str s)) => .ok (s.toList.map fun c => .str (String.singleton c))
  | some v =>
    match v.items? with
    | some items => .ok items
    | none => typeFailure ("object of type '" ++ v.typeName ++ "' has no len()")

/-- The keys among values, all of which must be scalars. -/
def scalars (items : List Value) : Except Trace (List Key) :=
  items.mapM fun v =>
    match v with
    | .scalar k => .ok k
    | v => typeFailure ("'<' not supported between instances of '" ++ v.typeName ++ "' and '"
        ++ v.typeName ++ "'")

/-- The most languages that a message lists. -/
def shownLanguages : Nat := 8

/-- The first languages in order, with a mark when there are more. -/
def preview (items : List Value) : Except Trace String := do
  let keys ← scalars items
  let sorted ← Key.sort keys
  let shown ← Key.joinTexts (sorted.take shownLanguages)
  pure (if shownLanguages < items.length then shown ++ ", ..." else shown)

/-- The message of an event for users, if it has one. -/
def message (e : Event) : Except Trace (Option String) :=
  if e.name = "grammar_package_loaded" then do
    let items ← e.languages
    pure (some ("Loaded grammar package " ++ e.textOr "package" "<unknown>" ++ " ("
      ++ toString items.length ++ " languages)"))
  else if e.name = "registry_ready" then do
    let items ← e.languages
    let shown ← preview items
    pure (some ("Grammar registry ready with " ++ toString items.length ++ " languages: " ++ shown))
  else if e.name = "highlight_skipped" then
    .ok (some ("Skipped highlighting for '" ++ e.textOr "language" "<unknown>" ++ "' block ("
      ++ e.textOr "reason" "unknown reason" ++ ")"))
  else .ok none

end Event

/-- Something that a run reports. -/
inductive Diagnostic where
  | warning (message : String) (cause : Option Trace)
  | error (message : String) (cause : Option Trace)
  | event (e : Event)

/-- The weight of a log record. -/
inductive LogLevel where
  | debug
  | info
  | warning
  | error
  deriving DecidableEq, Repr

/-- The name of a level. -/
def LogLevel.name : LogLevel → String
  | .debug => "DEBUG"
  | .info => "INFO"
  | .warning => "WARNING"
  | .error => "ERROR"

/-- A log record: level, message, and the failure recorded with it. -/
structure LogRecord where
  level : LogLevel
  message : String
  cause : Option Trace := none

/-- A diagnostic as a log record. The failure behind a warning is recorded for debugging only;
events without a message are recorded with their payload. -/
def Diagnostic.record (debugging : Bool) : Diagnostic → Except Trace LogRecord
  | .warning message cause => .ok ⟨.warning, message, if debugging then cause else none⟩
  | .error message cause => .ok ⟨.error, message, cause⟩
  | .event e => do
    match ← e.message with
    | some message => pure ⟨.info, message, none⟩
    | none =>
      pure ⟨.debug, "diagnostic event " ++ e.name ++ ": " ++ (Value.map e.payload).literal, none⟩

end CodeHighlight
