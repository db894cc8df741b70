import CodeHighlight.Packages.Directory
import CodeHighlight.Registry

/-!
# Sources of packages

A package identifier names a module, or a member of a module after a colon. Without a member the
grammars come from the first of these that the module has: a function `load_grammars`, a value
`GRAMMARS`, a directory of descriptors. Every failure of a package names its identifier.
-/

namespace CodeHighlight

/-- A package identifier: a module and a member of it, empty when none is named. -/
structure Identifier where
  text : String
  moduleName : String
  member : String

namespace Identifier

/-- The identifier in a text; the first colon ends the name of the module. -/
def ofText (text : String) : Identifier where
  text := text
  moduleName := String.ofList (Text.strip (text.toList.takeWhile (· != ':')))
  member := String.ofList (Text.strip ((text.toList.dropWhile (· != ':')).drop 1))

/-- A failure of the package. -/
def failure (i : Identifier) (message : String) : Failure := .inPackage i.text message

/-- Refuse the package. -/
def refuse {α : Type} (i : Identifier) (message : String) : Except Trace α :=
  .error (.ofFailure (i.failure message))

end Identifier

/-- Where the grammars of a package come from: the result of a call, a value, or a directory. -/
inductive Source where
  | call (result : Except Trace Value)
  | value (v : Value)
  | directory (entries : List (String × Resource))

namespace Source

/-- The result of calling a member, if it can be called; a parser is an opaque value. -/
def result? : Member → Option (Except Trace Value)
  | .function result => some result
  | .parser _ => some (.ok (.thing "PyCapsule" "capsule object"))
  | .value _ => none

/-- A member as a source. -/
def ofMember (m : Member) : Source :=
  match m, result? m with
  | _, some result => .call result
  | .value v, none => .value v
  | _, none => .value .null

/-- The function that gives the grammars of a module. -/
def loading? (m : Module) : Option Source :=
  ((Entries.get? m.members "load_grammars").bind result?).map .call

/-- The member that holds the grammars of a module. -/
def holding? (m : Module) : Option Source :=
  match Entries.get? m.members "GRAMMARS" with
  | some (.value v) => if v.isNull then none else some (.value v)
  | some member => some (ofMember member)
  | none => none

/-- The directory that declares the grammars of a module. -/
def declaring? (m : Module) : Option Source :=
  if m.isPackage then m.descriptors.map .directory else none

/-- The first source that a module has. -/
def ofModule? (m : Module) : Option Source := (loading? m).or ((holding? m).or (declaring? m))

/-- Import the module of an identifier. -/
def importModule (modules : Modules) (i : Identifier) : Except Trace Module :=
  if i.moduleName.isEmpty then i.refuse "missing module name"
  else
    (modules.load i.moduleName).mapError fun t =>
      if t.kind.isImport then
        t.raiseFrom (i.failure ("cannot import '" ++ i.moduleName ++ "': " ++ t.message))
      else t

/-- The failure to find the member of an identifier. -/
def missingMember (i : Identifier) : Trace :=
  let message := "module '" ++ i.moduleName ++ "' has no attribute '" ++ i.member ++ "'"
  (Trace.plain .attribute message).raiseFrom (i.failure message)

/-- The source that an identifier names. -/
def find (modules : Modules) (i : Identifier) : Except Trace Source := do
  let m ← importModule modules i
  if i.member.isEmpty then
    match ofModule? m with
    | some source => pure source
    | none => i.refuse "expected load_grammars(), GRAMMARS, or a grammars/ directory"
  else
    match m.member? i.moduleName i.member with
    | some member => pure (ofMember member)
    | none => .error (missingMember i)

/-- Grammars by key as a value. -/
def asValue (grammars : Entries String Grammar) : Value :=
  .map (grammars.map fun e => (.str e.1, .grammar e.2))

/-- What a source gives. -/
def provide (supply : Supply) : Source → Except Trace Value
  | .call result => result
  | .value v => .ok v
  | .directory entries => (Directory.grammars (.ofSupply supply) entries).map asValue

/-- A failure as one of the package, unless it is one already or interrupts the run. -/
def inPackage (i : Identifier) (t : Trace) : Trace :=
  if t.kind.isOrdinary && t.kind != .grammarPackage then t.raiseFrom (i.failure t.message) else t

/-- An entry of a package: a key that is a text and not empty, and a grammar. -/
def entry (i : Identifier) (e : Key × Value) : Except Trace (String × Grammar) :=
  match e.1 with
  | .str key =>
    if key.isEmpty then i.refuse ("invalid language key " ++ e.1.literal)
    else
      match e.2 with
      | .grammar g => .ok (key, g)
      | v => i.refuse ("entry '" ++ key ++ "' is not a grammar (" ++ v.typeName ++ ")")
  | k => i.refuse ("invalid language key " ++ k.literal)

/-- The grammars in a value. -/
def grammarsOf (i : Identifier) : Value → Except Trace (Entries String Grammar)
  | .map es => es.mapM (entry i)
  | v => i.refuse ("expected a mapping of grammars, got " ++ v.typeName)

/-- The grammars of the package with an identifier. -/
def load (supply : Supply) (identifier : String) : Except Trace (Entries String Grammar) := do
  let i := Identifier.ofText identifier
  let source ← find supply.modules i
  let v ← (source.provide supply).mapError (inPackage i)
  grammarsOf i v

end Source

end CodeHighlight
