import CodeHighlight.Grammars.Builtin
import CodeHighlight.Grammars.Words
import CodeHighlight.Packages.Source

/-!
# Built-in packages

The modules that are always there: the bindings of the built-in grammars, the package that declares
these grammars, and a package without any. The parser of a binding cuts a source into words.
-/

namespace CodeHighlight.Builtin

/-- The version of the program. -/
def version : String := "0.1.0"

/-- A member by name that is a function with a result. -/
def function (name : String) (result : Except Trace Value) : String × Member :=
  (name, .function result)

/-- The module of a parser binding. -/
def binding : Module := { members := [("language", .parser Words.parse)] }

/-- The parser bindings. -/
def bindings : Modules :=
  ["tree_sitter_javascript", "tree_sitter_python"].map fun name => (name, .ok binding)

/-- The aliases of the lexers. -/
def lexers : List String := ["toml", "rust", "text", "bash", "python"]

/-- The supply of the built-in grammars. -/
def bindingSupply : Supply := { modules := bindings, lexers, parser := Words.parse }

/-- The directory of the built-in descriptors. -/
def directory : List (String × Resource) := descriptors.map fun d => (d.1, .data d.2)

/-- The built-in grammars. -/
def grammars : Except Trace Value := (Source.directory directory).provide bindingSupply

/-- The program's own modules. -/
def own : Modules :=
  [ ("fencesmith", .ok { isPackage := true, descriptors := some directory }),
    ("fencesmith.grammars",
      .ok { members := [function "load_grammars" grammars], isPackage := true }),
    ("fencesmith.core", .ok { isPackage := true }),
    ("fencesmith.core.grammar",
      .ok { members := [function "ScopeMappings"
        (.ok (.thing "ScopeMappings" "ScopeMappings(0 selectors)"))] }),
    ("fencesmith.version",
      .ok { members := [function "get_version" (.ok (.str version))] }) ]

/-- All modules that are always there. -/
def modules : Modules := bindings ++ own ++ [("json", .ok { isPackage := true })]

/-- The supply with further modules, which come first. -/
def supplyWith (more : Modules) : Supply := { bindingSupply with modules := more ++ modules }

end CodeHighlight.Builtin
