import CodeHighlight.Data.Value

/-!
# Modules

Named modules that can be imported, with their members. A dotted name names a module inside a
package, and importing it imports the packages around it first. A package can come with a directory
of grammar descriptors.
-/

namespace CodeHighlight
open Text.Utf8 (Bytes)

/-- A parser as a binding provides it. -/
abbrev Parser := Bytes → Except Trace (Option Node)

/-- A member of a module: a value, a function with what a call of it gives, or a function that gives
a parser. -/
inductive Member where
  | value (v : Value)
  | function (result : Except Trace Value)
  | parser (parse : Parser)

/-- What a directory of descriptors holds under a name: a file with its bytes, a value that is read
already, or something that is no file. -/
inductive Resource where
  | file (bytes : Bytes)
  | data (v : Value)
  | folder

/-- A file with a text. -/
def Resource.text (s : String) : Resource := .file (Text.Utf8.ofString s)

/-- A module. Only packages hold further modules. -/
structure Module where
  members : Entries String Member := []
  isPackage : Bool := false
  descriptors : Option (List (String × Resource)) := none

/-- Modules by their full names; importing one can fail. -/
abbrev Modules := Entries String (Except Trace Module)

/-- What packages are made from: modules, lexers by their aliases in lower case, and the parser that
stands in for a binding whose parser is not known. -/
structure Supply where
  modules : Modules := []
  lexers : List String := []
  parser : Parser := fun _ => .ok none

namespace Modules

/-- The failure to find a module. -/
def missing (message : String) : Trace := .plain .missingModule ("No module named " ++ message)

/-- The names of the modules around a dotted name and the name itself, outermost first. -/
def chain (name : String) : List String :=
  let parts := Text.cutAt '.' name.toList
  (List.range parts.length).map fun i =>
    String.ofList (Text.joinWith ['.'] (parts.take (i + 1)))

/-- Import the modules of a chain, the first of which lies in `outer`. -/
def importChain (ms : Modules) (outer : Option (String × Module)) :
    List String → Except Trace (Option Module)
  | [] => .ok (outer.map Prod.snd)
  | name :: rest => do
    match outer with
    | some (parent, m) =>
      if !m.isPackage then
        .error (missing (Text.Quoted.quote name ++ "; " ++ Text.Quoted.quote parent
          ++ " is not a package"))
    | none => pure ()
    match Entries.get? ms name with
    | some found => do
      let m ← found
      importChain ms (some (name, m)) rest
    | none => .error (missing (Text.Quoted.quote name))

/-- Import a module; a name that is empty or starts with a dot is refused. -/
def load (ms : Modules) (name : String) : Except Trace Module := do
  if name.isEmpty then .error (.plain .value "Empty module name")
  else if name.startsWith "." then
    .error (.plain .type ("the 'package' argument is required to perform a relative import for "
      ++ Text.Quoted.quote name))
  else
    match ← importChain ms none (chain name) with
    | some m => pure m
    | none => .error (missing (Text.Quoted.quote name))

end Modules

namespace Module

/-- A member; every module has a name. -/
def member? (m : Module) (moduleName name : String) : Option Member :=
  match Entries.get? m.members name with
  | some x => some x
  | none => if name = "__name__" then some (.value (.str moduleName)) else none

end Module

end CodeHighlight
