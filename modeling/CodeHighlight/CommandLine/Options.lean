import CodeHighlight.Markdown.Extensions
import CodeHighlight.Text.Path
import CodeHighlight.Yaml.Value

/-!
# Options of the command line

The options of a run are read from a file, if one is given, and then overridden by what the command
line says. Grammars cannot be given in a file.
-/

namespace CodeHighlight.CommandLine

/-- The package that is loaded when no other is named. -/
def defaultPackage : String := "fencesmith.grammars"

/-- The suffixes of documents in Markdown. -/
def markdownSuffixes : List String := [".md", ".markdown", ".mdown", ".mkd"]

/-- The path names a document in Markdown. -/
def isMarkdown (path : String) : Bool :=
  markdownSuffixes.contains (Text.lower (Text.Path.suffix path))

/-- The values in texts separated by commas, without the blanks around them and without empty
ones. -/
def splitValues (texts : List String) : List String :=
  texts.flatMap fun s =>
    ((Text.cutAt ',' s.toList).map fun f => String.ofList (Text.strip f)).filter fun f => !f.isEmpty

/-- A failure of configuration. -/
def refuse {α : Type} (message : String) : Except Trace α := .error (.plain .configuration message)

/-- The options in the text of a file. -/
def readOptions (path text : String) : Except Trace (Entries Key Value) :=
  match Yaml.read text with
  | .ok (.map es) =>
    if Entries.has es (.str "grammars") then
      refuse ("Explicit grammars cannot be declared in a configuration file; "
        ++ "use grammar_packages instead.")
    else .ok es
  | .ok v =>
    if v.isNull then .ok []
    else refuse ("Configuration file '" ++ path ++ "' must contain a mapping.")
  | .error t =>
    if Yaml.isYamlFault t then
      .error (t.raiseFrom (.plain .configuration
        ("Invalid YAML in '" ++ path ++ "': " ++ t.message)))
    else .error t

/-- What the command line says about options. -/
structure Overrides where
  packages : List String := []
  whitelist : List String := []
  precedence : Option String := none
  classStyle : Option String := none

/-- A list of texts as a value. -/
def textList (texts : List String) : Value := .list (texts.map Value.str)

/-- Write an option if there is a value for it. -/
def override (es : Entries Key Value) (name : String) (v : Option Value) : Entries Key Value :=
  match v with
  | some v => Entries.insert es (.str name) v
  | none => es

/-- A list that overrides an option unless it is empty. -/
def unlessEmpty (texts : List String) : Option Value :=
  if texts.isEmpty then none else some (textList texts)

/-- The packages to load: those of the command line, else those of the file, else the default. -/
def packagesOf (es : Entries Key Value) (packages : List String) : Option Value :=
  match unlessEmpty (splitValues packages) with
  | some v => some v
  | none =>
    if (Entries.get? es (.str "grammar_packages")).any Value.isTruthy then none
    else some (textList [defaultPackage])

/-- Options from a file overridden by the command line. -/
def merge (es : Entries Key Value) (o : Overrides) : Entries Key Value :=
  let es := override es "grammar_packages" (packagesOf es o.packages)
  let es := override es "class_whitelist" (unlessEmpty (splitValues o.whitelist))
  let es := override es "package_precedence" (o.precedence.map Value.str)
  override es "class_style" (o.classStyle.map Value.str)

/-- The options of a run, given the path and the text of a file if there is one. -/
def buildOptions (file : Option (String × String)) (o : Overrides) :
    Except Trace (Entries Key Value) := do
  let es ← match file with
    | some (path, text) => readOptions path text
    | none => pure []
  pure (merge es o)

end CodeHighlight.CommandLine
