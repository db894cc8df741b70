import CodeHighlight.Failure

/-!
# The interpreter's stack

Three recursions of a run go as deep as their data: the walk through a document, the walk through
the syntax tree of a block, and the making of markup from spans. The last two start at the place
that the first one has reached. Each level of a recursion takes a frame of the interpreter's stack,
and a recursion that finds the stack full fails.

How many frames are taken by the calls in between is up to the interpreter and the libraries, so a
`Stack` gives these numbers. A nested value that is written out takes a level for each list and
mapping in it, wherever this happens (`Value.writable`).
-/

namespace CodeHighlight

/-- The room on the stack when a walk starts, in levels of a recursion. -/
structure Stack where
  /-- The levels of a document that a walk can go down. -/
  levels : Nat
  /-- The levels that have to be free below a preformatted element for it to be read. -/
  reading : Nat := 0
  /-- The levels that lie between a preformatted element and the root of its syntax tree. -/
  parsing : Nat := 0
  /-- The levels that lie between a preformatted element and the markup of its span. -/
  marking : Nat := 0
  deriving DecidableEq, Repr

namespace Stack

/-- The failure of a recursion that finds the stack full, and what it was about to do. -/
def exceeded (doing : String) : Trace :=
  .plain .recursion ("maximum recursion depth exceeded" ++ doing)

/-- The stack of an interpreter with its usual limit of a thousand frames. -/
def usual : Stack where
  levels := 988
  reading := 6
  parsing := 3
  marking := 6

end Stack

end CodeHighlight
