import CodeHighlight.Data.Checked
import CodeHighlight.Grammars.Binding
import CodeHighlight.Grammars.Tokens

/-!
# Descriptors

A descriptor declares one grammar: around the parser of a binding, with a table of scopes, or around
a lexer. It also declares the keys of the language; without keys, a default key is used.
`Descriptor.check` reads a descriptor from a mapping and reports all faults of its fields at once.
-/

namespace CodeHighlight

/-- What a grammar is made around. -/
inductive DescriptorKind where
  | binding
  | lexer
  deriving DecidableEq, Repr

/-- A declared grammar. -/
structure Descriptor where
  name : String
  kind : DescriptorKind := .binding
  keys : List String := []
  parser : Option String := none
  function : String := "language"
  lexer : Option String := none
  scopes : Entries String Value := []

/-- A grammar with the keys it is declared for. -/
structure Described where
  keys : List String
  grammar : Grammar

namespace Descriptor

/-- The names of the fields. -/
def fieldNames : List String := ["name", "type", "keys", "parser", "function", "lexer", "scopes"]

/-- The kinds by name. -/
def kinds : List (String × DescriptorKind) := [("tree-sitter", .binding), ("pygments", .lexer)]

/-- A text is there and not empty. -/
def isPresent (s : Option String) : Bool := s.any fun s => !s.isEmpty

/-- The rule for the whole: each kind needs what it is made around. -/
def kindRule (d : Descriptor) : Option String :=
  match d.kind with
  | .binding =>
    if isPresent d.parser then none else some "tree-sitter descriptors require a 'parser' module"
  | .lexer =>
    if isPresent d.lexer then none else some "pygments descriptors require a 'lexer' alias"

/-- Read a descriptor from a mapping. -/
def check (es : Entries Key Value) : Checked Descriptor :=
  (do
    let name ← Checked.required es "name" "" Checked.string
    let kind ← Checked.field es "type" .binding (Checked.choice kinds .binding)
    let keys ← Checked.field es "keys" [] (Checked.strings "list")
    let parser ← Checked.field es "parser" none Checked.stringOrNull
    let function ← Checked.field es "function" "language" Checked.string
    let lexer ← Checked.field es "lexer" none Checked.stringOrNull
    let scopes ← Checked.field es "scopes" [] Checked.entries
    ⟨(), Checked.unknownKeys fieldNames es⟩
    pure ⟨name, kind, keys, parser, function, lexer, scopes⟩ :
    Checked Descriptor).obeys [] kindRule

/-- A descriptor, or the failure that lists what is wrong with it. -/
def ofValue : Value → Except Trace Descriptor
  | .map es =>
    match (check es).result with
    | .ok d => .ok d
    | .error faults => .error (.plain .validation (FieldFault.markedTexts faults))
  | _ => .error (.plain .value "descriptor must be a mapping")

/-- The grammar around the lexer with an alias, which may be written in any case. -/
def lexerGrammar (supply : Supply) (name : String) : Except Trace Grammar :=
  if supply.lexers.contains (Text.lower name) then .ok (Lexing.blankGrammar 0 name)
  else .error (.plain .unknownLexer ("no lexer for alias " ++ Text.Quoted.quote name ++ " found"))

/-- Make the declared grammar. -/
def build (supply : Supply) (d : Descriptor) : Except Trace Grammar :=
  match d.kind with
  | .lexer => lexerGrammar supply (d.lexer.getD "")
  | .binding =>
    Binding.ofModule supply.modules supply.parser 0 (d.parser.getD "") d.function (some d.name)
      (d.scopes.map fun e => (.str e.1, e.2))

end Descriptor

namespace Described

/-- The grammar under a serial number. -/
def numbered (serial : Nat) (d : Described) : Described :=
  { d with grammar := { d.grammar with serial } }

/-- The keys with their common grammar, each once. -/
def entries (d : Described) : Entries String Grammar :=
  Entries.ofList (d.keys.map fun k => (k, d.grammar))

end Described

end CodeHighlight
