import CodeHighlight.Packages.Module
import CodeHighlight.Scope.Table

/-!
# Binding grammars

A grammar around a parser that a module provides, with a table that names the scopes of its nodes.
-/

namespace CodeHighlight.Binding

/-- The grammar around a parser. -/
def grammar (serial : Nat) (name : String) (table : ScopeTable) (parse : Parser) : Grammar where
  serial := serial
  typeName := "TreeSitterGrammar"
  form := .binding (some name) table.size
  name := some name
  parse := parse
  resolver := .ok table.scopesFor

/-- The parser that a function of a module gives; a function that is made for something else gives
the parser `fallback`. -/
def parserOf (ms : Modules) (fallback : Parser) (moduleName function : String) :
    Except Trace Parser := do
  let m ← ms.load moduleName
  match m.member? moduleName function with
  | some (.parser parse) => pure parse
  | some (.function result) => do
    let _ ← result
    pure fallback
  | _ =>
    .error (.plain .attribute
      ("Module '" ++ moduleName ++ "' has no callable '" ++ function ++ "'"))

/-- The grammar around a parser of a module. Without a name of its own it has that of the module. -/
def ofModule (ms : Modules) (fallback : Parser) (serial : Nat) (moduleName function : String)
    (name : Option String) (scopes : Entries Key Value) : Except Trace Grammar := do
  let parse ← parserOf ms fallback moduleName function
  let table ← ScopeTable.ofEntries .usual scopes
  let shown := match name with
    | some n => if n.isEmpty then moduleName else n
    | none => moduleName
  pure (grammar serial shown table parse)

end CodeHighlight.Binding
