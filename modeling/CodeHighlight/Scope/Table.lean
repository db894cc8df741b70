import CodeHighlight.Pattern.Engine
import CodeHighlight.Scope.Selector

/-!
# Scope tables

A table maps groups of selectors to scopes. What a selector leads to is a list of alternatives,
each with scopes and possibly with a condition on the text of the node; the first alternative whose
condition holds is taken.

Mappings are kept in buckets by the label and namedness of their last step, within a bucket the
mappings with more steps first and otherwise in the order of their declaration.

A table that cannot be read is refused with a message that shows what is wrong. What reading takes
from the interpreter, the engine that compiles the conditions and the room for writing out values,
is an `Interpreter`.
-/

namespace CodeHighlight
open Text.Utf8 (Bytes)

/-- Scopes and the condition under which they apply. -/
structure Alternative where
  scopes : List String
  search : Option Searcher := none
  exact : Option String := none

namespace Alternative

/-- The condition holds for a text; the exact text is compared first. -/
def applies (a : Alternative) (text : String) : Except Trace Bool :=
  if a.exact.any (· != text) then .ok false
  else
    match a.search with
    | none => .ok true
    | some s => s.run text

/-- The scopes of the first alternative that applies. -/
def choose (text : String) : List Alternative → Except Trace (Option (List String))
  | [] => .ok none
  | a :: rest => do
    if ← a.applies text then pure (some a.scopes) else choose text rest

end Alternative

/-- A selector with its text, what it leads to, and its number in the order of declaration. -/
structure Mapping where
  text : String
  selector : Selector
  alternatives : List Alternative
  order : Nat

/-- The first mapping is considered before the second: more steps first, then declaration order. -/
def Mapping.precedes (a b : Mapping) : Bool :=
  b.selector.length < a.selector.length ||
    (a.selector.length == b.selector.length && a.order < b.order)

/-- Insert a mapping at its place. -/
def Mapping.insertInto (m : Mapping) : List Mapping → List Mapping
  | [] => [m]
  | a :: rest => if m.precedes a then m :: a :: rest else a :: m.insertInto rest

/-- What a bucket is filed under: a label and whether it is named. -/
abbrev BucketKey := String × Bool

/-- A table of mappings. -/
structure ScopeTable where
  buckets : Entries BucketKey (List Mapping) := []
  size : Nat := 0

namespace ScopeTable

/-- The bucket with a key. -/
def bucket (t : ScopeTable) (key : BucketKey) : List Mapping := (Entries.get? t.buckets key).getD []

/-- Add a mapping for a selector. -/
def add (t : ScopeTable) (text : String) (s : Selector) (alternatives : List Alternative) :
    ScopeTable :=
  let key := (s.target.label, s.target.named)
  let mapping : Mapping := ⟨text, s, alternatives, t.size⟩
  ⟨Entries.insert t.buckets key (mapping.insertInto (t.bucket key)), t.size + 1⟩

/-- All mappings in the order of their declaration. -/
def mappings (t : ScopeTable) : List Mapping :=
  (t.buckets.flatMap Prod.snd).mergeSort fun a b => a.order ≤ b.order

/-- The texts of the selectors in the order of their declaration. -/
def selectors (t : ScopeTable) : List String := t.mappings.map (·.text)

/-- The table as text. -/
def text (t : ScopeTable) : String := Grammar.tableText t.size

/-- The text of a node. -/
def textOf (n : Node) (source : Bytes) : String :=
  Text.Utf8.decodeLossy (Text.Utf8.sliceWrapped source n.start n.stop)

/-- The scopes from the first mapping that fits and has an alternative that applies. -/
def firstScopes (c : Cursor) (source : Bytes) : List Mapping → Except Trace (List String)
  | [] => .ok []
  | r :: rest =>
    if r.selector.fits c then do
      match ← Alternative.choose (textOf c.node source) r.alternatives with
      | some scopes => pure scopes
      | none => firstScopes c source rest
    else firstScopes c source rest

/-- The scopes of the node at a cursor. -/
def scopesFor (t : ScopeTable) : Resolver := fun c source =>
  firstScopes c source (t.bucket (c.node.label, c.node.named))

/-! ## Reading tables -/

/-- A failure to read a table. -/
def refuse {α : Type} (message : String) : Except Trace α := .error (.plain .value message)

/-- What the reading of tables takes from the interpreter: its engine for patterns, and the levels
of its stack that are left for writing out values. -/
structure Interpreter where
  engine : Pattern.Engine
  levels : Nat

/-- An interpreter with the engine of this program and a stack of the usual size. -/
def Interpreter.usual : Interpreter := ⟨.builtin, Stack.usual.levels⟩

section Reading
variable (interp : Interpreter)

/-- The failure of a value that is no list of scopes. -/
def badScopes {α : Type} (group : String) (v : Value) : Except Trace α := do
  v.writable interp.levels
  refuse ("Invalid scopes for selector '" ++ group ++ "': " ++ v.literal)

/-- Items that are non-empty strings, all of them. -/
def scopeItems? (items : List Value) : Option (List String) :=
  items.mapM fun v =>
    match v with
    | .scalar (.str s) => if s.isEmpty then none else some s
    | _ => none

/-- Scopes: one string, an empty one standing for none, or a list of strings that are not empty. -/
def scopes? : Value → Option (List String)
  | .scalar (.str s) => some (if s.isEmpty then [] else [s])
  | .list items | .tuple items => scopeItems? items
  | _ => none

/-- Read scopes. -/
def readScopes (group : String) (v : Value) : Except Trace (List String) :=
  match scopes? v with
  | some scopes => .ok scopes
  | none => badScopes interp group v

/-- The failure of a table for a failure of the engine; a malformed pattern is a bad value. -/
def patternFailure (group : String) (t : Trace) : Trace :=
  if t.kind = Pattern.malformed then
    t.raiseFrom (.plain .value ("Invalid match pattern for '" ++ group ++ "': " ++ t.message))
  else t

/-- The search of a conditional, if it has a pattern. -/
def readSearch (group : String) (pattern : Value) : Except Trace (Option Searcher) :=
  if pattern.isNull then .ok none
  else
    match interp.engine.compile pattern with
    | .ok s => .ok (some s)
    | .error t => .error (patternFailure group t)

/-- The text that a conditional asks for, if it does. -/
def readExact (v : Value) : Except Trace (Option String) :=
  if v.isNull then .ok none
  else do
    v.writable interp.levels
    pure (some v.text)

/-- The keys of a conditional. -/
def conditionalKeys : List String := ["scopes", "match", "exact"]

/-- A conditional alternative. -/
def readConditional (group : String) (entries : Entries Key Value) : Except Trace Alternative := do
  match Entries.get? entries (.str "scopes") with
  | none => refuse ("Conditional scope for '" ++ group ++ "' is missing 'scopes'")
  | some scopes =>
    let unknown := (Entries.keys entries).filter fun k =>
      !(k.str?.any fun s => conditionalKeys.contains s)
    if unknown.isEmpty then
      let search ← readSearch interp group ((Entries.get? entries (.str "match")).getD .null)
      let scopes ← readScopes interp group scopes
      let exact ← readExact interp ((Entries.get? entries (.str "exact")).getD .null)
      pure ⟨scopes, search, exact⟩
    else
      let names ← Key.joinTexts (← Key.sort unknown)
      refuse ("Unsupported keys for selector '" ++ group ++ "': " ++ names)

/-- One item of a list of alternatives. -/
def readAlternative (group : String) (v : Value) : Except Trace Alternative :=
  match v with
  | .map entries => readConditional interp group entries
  | v => do
    let scopes ← readScopes interp group v
    pure { scopes }

/-- What a group of selectors leads to. -/
def readAlternatives (group : String) (v : Value) : Except Trace (List Alternative) :=
  match v with
  | .list items | .tuple items =>
    if items.all fun v => v.str?.isSome then do
      let scopes ← readScopes interp group v
      pure [{ scopes }]
    else items.mapM (readAlternative interp group)
  | v => do
    let a ← readAlternative interp group v
    pure [a]

/-- Add the mappings of one entry. -/
def readEntry (t : ScopeTable) (e : Key × Value) : Except Trace ScopeTable :=
  match e.1 with
  | .str group => do
    let alternatives ← readAlternatives interp group e.2
    let selectors ← Selector.ofGroup group
    pure (selectors.foldl (fun t s => t.add s.1 s.2 alternatives) t)
  | k => do
    k.writable
    refuse ("Scope selector must be a string, got " ++ k.literal)

/-- Read a table. -/
def ofEntries (entries : Entries Key Value) : Except Trace ScopeTable :=
  entries.foldlM (readEntry interp) {}

end Reading

end ScopeTable

end CodeHighlight
