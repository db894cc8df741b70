import CodeHighlight.Data.Checked
import CodeHighlight.Registry
import CodeHighlight.Scope.Classes

/-!
# Configuration

The options of a highlighting run. `Config.validate` reads them from a mapping and reports all
faults of its fields at once. Beyond the types of the fields it asks for keys that are not blank,
for package identifiers that are not blank, for a marker that is one class, and for grammars or
packages but not both.
-/

namespace CodeHighlight

/-- The options of a run. The whitelist is kept in order and without repetitions. -/
structure Config where
  grammars : Entries String Grammar := []
  packages : List String := []
  whitelist : Option (List String) := none
  precedence : Precedence := .last
  style : ClassStyle := .segments
  separator : String := "-"
  lead : String := ""
  marker : String := "tree-sitter"

namespace Config

/-- The policy by which class names are derived. -/
def policy (c : Config) : ClassPolicy := ⟨c.style, c.separator, c.lead, c.whitelist⟩

/-- The explicit grammars as a registry. -/
def explicit (c : Config) : Registry := c.grammars.map fun e => (.str e.1, e.2)

/-- Names as a set: in order and without repetitions. -/
def setOf (names : List String) : List String := (names.eraseDups).mergeSort fun a b => a ≤ b

/-- The rule for explicit grammars: keys that are not blank, and grammars. -/
def grammarRule (entries : Entries String Value) : Option String :=
  entries.findSome? fun e =>
    if Text.isAllBlank e.1.toList then some "grammar keys must be non-empty strings"
    else
      match e.2 with
      | .grammar _ => none
      | v => some ("grammar '" ++ e.1 ++ "' must provide parse() and scopes, got " ++ v.typeName)

/-- The rule for package identifiers: none is blank. -/
def packageRule (packages : List String) : Option String :=
  if packages.any fun p => p.isEmpty then
    some "grammar package identifiers must be non-empty"
  else none

/-- The rule for the marker: one class. -/
def markerRule (marker : String) : Option String :=
  if marker.isEmpty || marker.toList.any Text.isBlank then
    some "marker_class must be a single non-empty class name"
  else none

/-- The rule for the whole: grammars or packages, not both. -/
def sourceRule (c : Config) : Option String :=
  if !c.grammars.isEmpty && !c.packages.isEmpty then
    some "grammars or grammar_packages must be specified, not both"
  else none

/-- The names of the fields. -/
def fieldNames : List String :=
  ["grammars", "grammar_packages", "class_whitelist", "package_precedence", "class_style",
    "class_separator", "class_prefix", "marker_class"]

/-- The explicit grammars among the options. -/
def checkGrammars (place : List String) (v : Value) : Checked (Entries String Grammar) := do
  let es ← (Checked.entries place v).obeys place grammarRule
  pure (Entries.mapValues Value.toGrammar es)

/-- The package identifiers among the options, without the blanks around them. -/
def checkPackages (place : List String) (v : Value) : Checked (List String) :=
  (do
    let items ← Checked.strings "list" place v
    pure (items.map Text.trim) : Checked (List String)).obeys place packageRule

/-- The whitelist among the options. -/
def checkWhitelist (place : List String) (v : Value) : Checked (Option (List String)) :=
  if v.isNull then pure none else do
    let items ← Checked.strings "frozenset" place v
    pure (some (setOf items))

/-- Read options from a mapping. -/
def check (es : Entries Key Value) : Checked Config :=
  (do
    let grammars ← Checked.field es "grammars" [] checkGrammars
    let packages ← Checked.field es "grammar_packages" [] checkPackages
    let whitelist ← Checked.field es "class_whitelist" none checkWhitelist
    let precedence ← Checked.field es "package_precedence" .last
      (Checked.choice [("last", .last), ("first", .first)] .last)
    let style ← Checked.field es "class_style" .segments
      (Checked.choice [("segments", .segments), ("joined", .joined)] .segments)
    let separator ← Checked.field es "class_separator" "-" Checked.string
    let lead ← Checked.field es "class_prefix" "" Checked.string
    let marker ← Checked.field es "marker_class" "tree-sitter" fun place v =>
      (Checked.string place v).obeys place markerRule
    ⟨(), Checked.unknownKeys fieldNames es⟩
    pure ⟨grammars, packages, whitelist, precedence, style, separator, lead, marker⟩ :
    Checked Config).obeys [] sourceRule

/-- Options as they are offered: missing, validated already, or a value. -/
inductive Options where
  | missing
  | ready (c : Config)
  | given (v : Value)

/-- The failure of options that cannot be used. -/
def refuse {α : Type} (message : String) : Except Trace α :=
  .error (.plain .configuration message)

/-- Options that can be used, or the failure that lists what is wrong with them. -/
def validate : Options → Except Trace Config
  | .missing => refuse "Missing options"
  | .ready c => .ok c
  | .given (.map es) =>
    match (check es).result with
    | .ok c => .ok c
    | .error faults =>
      .error ((Trace.plain .validation (FieldFault.markedTexts faults)).raiseFrom
        (.plain .configuration ("Invalid options: " ++ FieldFault.texts faults)))
  | .given v =>
    if v.isNull then refuse "Missing options"
    else refuse ("Invalid options: expected a mapping, got " ++ v.typeName)

end Config

end CodeHighlight
