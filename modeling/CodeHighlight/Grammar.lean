import CodeHighlight.Failure
import CodeHighlight.Tree

/-!
# Grammars

A grammar turns the bytes of a source into a syntax tree and names the scopes of the nodes of that
tree. Both can fail. Fetching the resolver is a step of its own, because a thing that is offered as
a grammar can lack one.
-/

namespace CodeHighlight
open Text.Utf8 (Bytes)

/-- Names the scopes of the node at a cursor, given the bytes of the source. -/
abbrev Resolver := Cursor → Bytes → Except Trace (List String)

/-- How a grammar came about: around a lexer, around a parser binding with a table of so many
selectors, or otherwise. -/
inductive GrammarForm where
  | lexer (name : String)
  | binding (name : Option String) (selectors : Nat)
  | other
  deriving DecidableEq, Repr

/-- A grammar. `serial` tells apart the grammars that were made together; `label` is the name that
its maker gave it; `name` and `lexerName` are what it says of itself. -/
structure Grammar where
  serial : Nat
  typeName : String
  form : GrammarForm := .other
  label : Option String := none
  name : Option String := none
  lexerName : Option String := none
  parse : Bytes → Except Trace (Option Node)
  resolver : Except Trace Resolver

namespace Grammar

/-- The name in a listing of entries. -/
def listed (g : Grammar) : String := g.label.getD g.typeName

/-- The literal of a grammar made from a lexer or a binding. -/
def literal? (g : Grammar) : Option String :=
  match g.form with
  | .lexer name => some ("PygmentsGrammar(" ++ Text.Quoted.quote name ++ ")")
  | .binding name _ =>
    let shown := match name with
      | some n => if n.isEmpty then "unnamed" else n
      | none => "unnamed"
    some ("TreeSitterGrammar(" ++ Text.Quoted.quote shown ++ ")")
  | .other => none

/-- The text of a table by its size. -/
def tableText (selectors : Nat) : String := "ScopeMappings(" ++ toString selectors ++ " selectors)"

/-- The text of the group of keys that share a grammar. -/
def groupText (g : Grammar) : String :=
  match g.form, g.literal? with
  | .binding _ n, some text => text ++ " " ++ tableText n
  | _, some text => text
  | _, none => g.listed

/-- What a table of languages says about a grammar: its name, its lexer's alias, or its type. -/
def description (g : Grammar) : String :=
  match g.name, g.lexerName with
  | some n, lexer =>
    if n.isEmpty then
      match lexer with
      | some a => if a.isEmpty then g.typeName else "pygments:" ++ a
      | none => g.typeName
    else n
  | none, some a => if a.isEmpty then g.typeName else "pygments:" ++ a
  | none, none => g.typeName

/-- The failure to find a member of a thing whose type is written `type`. -/
def missingMember (type member : String) : Trace :=
  .plain .attribute ("'" ++ type ++ "' object has no attribute '" ++ member ++ "'")

/-- A thing that stands where a grammar belongs and can do nothing. -/
def inert (serial : Nat) (typeName shownType : String) : Grammar where
  serial := serial
  typeName := typeName
  parse := fun _ => .error (missingMember shownType "parse")
  resolver := .error (missingMember shownType "scopes")

end Grammar

end CodeHighlight
