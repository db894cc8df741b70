import CodeHighlight.Rules.Rule
import CodeHighlight.Stack

/-!
# Simple actions

Handlers that record the elements they are called on, and then do one thing: nothing, append an
element, rename the element, keep the walk from going below it, mark it, or fail.
-/

namespace CodeHighlight
open Html (Element)

/-- A call of a handler: its name, the name of the element, and the element's own identifier. -/
structure Visit where
  handler : String
  tag : String
  id : Option String
  deriving DecidableEq, Repr

/-- What a handler does after it has recorded its call. -/
inductive Action where
  | nothing
  | append
  | rename (name : String)
  | suppress
  | mark
  | fail (t : Trace)

namespace Action

/-- The call of a handler on an element. -/
def visitOf (handler : String) (e : Element) : Visit :=
  ⟨handler, e.tag.name, (e.tag.attribute? "id").map (·.toText)⟩

/-- The paragraph that the handler appends, numbered by the calls so far. -/
def paragraph (handler : String) (id calls : Nat) : Html.Node :=
  .element { id, name := "p", attributes := [("id", .text (handler ++ "-" ++ toString calls))] } []

/-- The handler of an action. An element without room below it takes no further elements. -/
def handler (name : String) (a : Action) : Handler (List Visit) := fun e w =>
  let w := { w with data := w.data ++ [visitOf name e] }
  match a with
  | .nothing => (e, w, none)
  | .append =>
    if w.room = 0 then (e, w, some (Stack.exceeded ""))
    else
      ({ e with children := e.children ++ [paragraph name w.nextId w.data.length] },
        { w with nextId := w.nextId + 1 }, none)
  | .rename name => ({ e with tag := { e.tag with name := name } }, w, none)
  | .suppress => (e, w.suppress e.tag.id, none)
  | .mark => (e, w.mark e.tag.id, none)
  | .fail t => (e, w, some t)

end Action

end CodeHighlight
