import CodeHighlight.Rules.Rule
import CodeHighlight.Stack

/-!
# The rule engine

A walk visits the elements of a tree, outer ones first, and applies to each the rules registered
for its name. A rule that marks elements is left out on an element that is marked already. The
children are those that the element has when its rules are done.

A walk takes a level of the stack for each level of elements. When it would go deeper than the stack
has room for, it fails.
-/

namespace CodeHighlight
open Html (Element)

namespace RuleTable
variable {σ : Type}

/-- Apply rules to an element in order. -/
def dispatch (e : Element) (w : Walk σ) : List (Rule σ) → Handled σ
  | [] => (e, w, none)
  | r :: rest =>
    if r.autoMark && w.isProcessed e.tag.id then dispatch e w rest
    else
      match r.handler e w with
      | (e', w', some t) => (e', w', some t)
      | (e', w', none) =>
        let w' := if r.autoMark then w'.mark e.tag.id else w'
        let w' := if r.nestable then w' else w'.suppress e.tag.id
        dispatch e' w' rest

/-- Apply a function to the elements among some nodes, until it fails. -/
def visitAll (visit : Element → Walk σ → Handled σ) (w : Walk σ) :
    List Html.Node → List Html.Node × Walk σ × Option Trace
  | [] => ([], w, none)
  | .text kind s :: rest =>
    let (nodes, w, t) := visitAll visit w rest
    (.text kind s :: nodes, w, t)
  | .element tag children :: rest =>
    match visit ⟨tag, children⟩ w with
    | (e, w, some t) => (e.toNode :: rest, w, some t)
    | (e, w, none) =>
      let (nodes, w, t) := visitAll visit w rest
      (e.toNode :: nodes, w, t)

/-- Visit an element and what is below it, when so many levels are left. -/
def visit (table : RuleTable σ) : Nat → Element → Walk σ → Handled σ
  | 0, e, w => (e, w, some (Stack.exceeded ""))
  | n + 1, e, w =>
    match dispatch e { w with room := n } (table.rulesFor e.tag.name) with
    | (e', w', some t) => (e', w', some t)
    | (e', w', none) =>
      if w'.isSuppressed e.tag.id then (e', w', none)
      else
        let (children, w', t) := visitAll (visit table n) w' e'.children
        (⟨e'.tag, children⟩, w', t)

/-- Walk through a tree, down to the given number of levels. -/
def run (table : RuleTable σ) (levels : Nat) (root : Element) (w : Walk σ) : Handled σ :=
  visit table levels root w

end RuleTable

end CodeHighlight
