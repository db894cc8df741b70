import CodeHighlight.Failure
import CodeHighlight.Html.Node

/-!
# Rules

A rule is a handler for the elements with certain names. The rules of a name are kept in the order
of priority and name, and a second rule of the same name is ignored there.

What a handler does is declared with it: the names of elements, the priority, and whether the rule
marks an element as processed (`autoMark`) and lets the walk go on below it (`nestable`).
-/

namespace CodeHighlight
open Html (Element)

/-- What the handlers of a walk share: the numbers of the elements that are processed and of those
below which the walk does not go, the next free number, the number of levels that are free below
the current element, and the data of the handlers. -/
structure Walk (σ : Type) where
  processed : List Nat := []
  suppressed : List Nat := []
  nextId : Nat
  room : Nat := 0
  data : σ

namespace Walk
variable {σ : Type}

/-- Mark an element as processed. -/
def mark (w : Walk σ) (id : Nat) : Walk σ := { w with processed := id :: w.processed }

/-- Keep the walk from going below an element. -/
def suppress (w : Walk σ) (id : Nat) : Walk σ := { w with suppressed := id :: w.suppressed }

/-- The element is processed. -/
def isProcessed (w : Walk σ) (id : Nat) : Bool := w.processed.contains id

/-- The walk does not go below the element. -/
def isSuppressed (w : Walk σ) (id : Nat) : Bool := w.suppressed.contains id

end Walk

/-- What a handler leaves: the element, what is shared, and the failure that ends the walk. -/
abbrev Handled (σ : Type) := Element × Walk σ × Option Trace

/-- A handler changes the element it is given. What it has changed before it fails stays. -/
abbrev Handler (σ : Type) := Element → Walk σ → Handled σ

/-- A handler with what is declared for it. -/
structure Rule (σ : Type) where
  priority : Int := 0
  tags : List String
  name : String
  handler : Handler σ
  autoMark : Bool := true
  nestable : Bool := true

/-- What is declared for a handler; without a name of its own a rule has that of the handler. -/
structure Declaration where
  tags : List String
  priority : Int := 0
  name : Option String := none
  autoMark : Bool := true
  nestable : Bool := true

namespace Declaration

/-- A declaration needs an element. -/
def check (d : Declaration) : Except Trace Declaration :=
  if d.tags.isEmpty then .error (.plain .type "@renders requires at least one tag") else .ok d

/-- The rule for a handler with the given name. -/
def bind {σ : Type} (d : Declaration) (handlerName : String) (handler : Handler σ) : Rule σ where
  priority := d.priority
  tags := d.tags
  name :=
    match d.name with
    | some n => if n.isEmpty then handlerName else n
    | none => handlerName
  handler := handler
  autoMark := d.autoMark
  nestable := d.nestable

end Declaration

/-- A handler that is offered: its name, and what is declared for it. -/
structure Offer (σ : Type) where
  name : String
  declaration : Option Declaration
  handler : Handler σ

/-- The rule of an offer, if something is declared. -/
def Offer.rule? {σ : Type} (o : Offer σ) : Option (Rule σ) :=
  o.declaration.map fun d => d.bind o.name o.handler

namespace Rule
variable {σ : Type}

/-- The order of rules: by priority, then by name. -/
def before (a b : Rule σ) : Bool :=
  a.priority < b.priority || (a.priority = b.priority && a.name < b.name)

/-- Insert a rule behind the last rule that it does not come before. -/
def insert (r : Rule σ) : List (Rule σ) → List (Rule σ)
  | [] => [r]
  | x :: rest => if r.before x then r :: x :: rest else x :: insert r rest

/-- Insert a rule unless there is one with its name. -/
def insertNew (r : Rule σ) (rules : List (Rule σ)) : List (Rule σ) :=
  if rules.any fun x => x.name = r.name then rules else insert r rules

/-- A rule over the second of two data. -/
def onSecond {ρ : Type} (r : Rule σ) : Rule (ρ × σ) where
  priority := r.priority
  tags := r.tags
  name := r.name
  autoMark := r.autoMark
  nestable := r.nestable
  handler := fun e w =>
    let (e, inner, t) := r.handler e { w with data := w.data.2 }
    (e, { inner with data := (w.data.1, inner.data) }, t)

end Rule

/-- Rules by the names of elements. -/
abbrev RuleTable (σ : Type) := Entries String (List (Rule σ))

/-- A line of the description of a table. -/
structure RuleLine where
  tag : String
  name : String
  priority : Int
  order : Nat
  deriving DecidableEq, Repr

namespace RuleTable
variable {σ : Type}

/-- The rules for the elements with a name, in order. -/
def rulesFor (t : RuleTable σ) (tag : String) : List (Rule σ) := (Entries.get? t tag).getD []

/-- Register a rule for each name it targets. -/
def register (t : RuleTable σ) (r : Rule σ) : RuleTable σ :=
  r.tags.foldl (fun t tag => Entries.insert t tag (r.insertNew (rulesFor t tag))) t

/-- Register the rule of an offer for which something is declared. -/
def registerOffer (t : RuleTable σ) (o : Offer σ) : Except Trace (RuleTable σ) :=
  match o.rule? with
  | some r => .ok (t.register r)
  | none => .error (.plain .type "Handler must be decorated with @renders")

/-- Register the rules among the members of a thing, in the order of their names. -/
def collect (t : RuleTable σ) (members : List (String × Offer σ)) : RuleTable σ :=
  ((members.mergeSort fun a b => a.1 ≤ b.1).filterMap fun m => m.2.rule?).foldl register t

/-- The names that have rules, in order. -/
def tags (t : RuleTable σ) : List String := (Entries.keys t).mergeSort fun a b => a ≤ b

/-- All rules, by the names of elements and then in order. -/
def describe (t : RuleTable σ) : List RuleLine :=
  t.tags.flatMap fun tag =>
    (t.rulesFor tag).zipIdx.map fun (r, i) => ⟨tag, r.name, r.priority, i⟩

end RuleTable

end CodeHighlight
