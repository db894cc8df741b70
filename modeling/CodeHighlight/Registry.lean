import CodeHighlight.Data.Entries
import CodeHighlight.Data.Key
import CodeHighlight.Grammar

/-!
# Registries

A registry maps language keys to grammars. It is merged from the mappings that packages provide, in
the order in which the packages are listed, and from explicitly given grammars, which always win.
-/

namespace CodeHighlight

/-- Which of several packages wins when they define the same key. -/
inductive Precedence where
  | last
  | first
  deriving DecidableEq, Repr

/-- The name of a precedence. -/
def Precedence.name : Precedence → String
  | .last => "last"
  | .first => "first"

/-- Grammars by language key, in the order in which the keys were first defined. -/
abbrev Registry := Entries Key Grammar

namespace Registry

/-- Add the grammars of one package. -/
def addPackage (precedence : Precedence) (r : Registry) (package : Registry) : Registry :=
  package.foldl (fun r e =>
    match precedence with
    | .last => Entries.insert r e.1 e.2
    | .first => Entries.insertNew r e.1 e.2) r

/-- Merge the grammars of packages in listed order, then the explicit ones. -/
def build (explicit : Registry) (loaded : List Registry) (precedence : Precedence) : Registry :=
  Entries.update (loaded.foldl (addPackage precedence) []) explicit

/-- The keys in order. -/
def languages (r : Registry) : Except Trace (List Key) := Key.sort (Entries.keys r)

/-- There is a grammar for the language, whose name is not empty. -/
def canHighlight (r : Registry) (language : Option String) : Bool :=
  match language with
  | some l => !l.isEmpty && Entries.has r (.str l)
  | none => false

/-- The grammar of a key. -/
def find (r : Registry) (k : Key) : Except Trace Grammar :=
  match Entries.get? r k with
  | some g => .ok g
  | none => .error (.ofFailure ⟨.key, k.literal, none, none⟩)

/-- The registry as text: its keys in order. -/
def text (r : Registry) : Except Trace String := do
  let keys ← r.languages
  pure ("GrammarRegistry([" ++ ", ".intercalate (keys.map Key.literal) ++ "])")

end Registry

end CodeHighlight
