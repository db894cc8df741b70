import CodeHighlight.Grammar
import CodeHighlight.Scope.Classes
import CodeHighlight.Span
import CodeHighlight.Stack
import CodeHighlight.Text.Wide

/-!
# Highlighting

A source and a syntax tree become a span. Every node with a range becomes a span inside that of its
parent; the text between the children of a node, and before and after them, becomes runs. Ranges
are cut to what is left of the parent's range behind the children before, so the runs in order are
always the source.

A root that does not cover the source, or has no range, is enclosed in a span without classes.

The walk takes a level of the stack for each level of nodes, and finding the classes of scopes takes
one more. When no level is left the walk fails, which is reported as a defect of the tree.
-/

namespace CodeHighlight
open Text (Wide)
open Text.Utf8 (Bytes)

namespace Highlight

/-- What stays the same while a tree is walked. -/
structure Setting where
  resolver : Resolver
  source : Bytes
  policy : ClassPolicy

/-- The run of text between two positions; both must lie between characters. -/
def Setting.run (w : Setting) (start stop : Nat) : Except Trace Piece :=
  match Text.Utf8.decode (Text.Utf8.slice w.source start stop) with
  | .ok text => .ok (.run text)
  | .error e => .error (.plain .decoding e.message)

/-- The run of text between two positions, or nothing when they are not apart. -/
def Setting.gap (w : Setting) (start stop : Nat) : Except Trace (List Piece) :=
  if start < stop then (w.run start stop).map ([·]) else .ok []

/-- Begin with a node when so many levels are left: its offsets are compared. -/
def enter (room : Nat) : Except Trace Unit :=
  if room = 0 then .error (Stack.exceeded " in comparison") else .ok ()

/-- The classes of scopes, when so many levels are left for their node. -/
def Setting.classesIn (w : Setting) (room : Nat) (scopes : List String) :
    Except Trace (List String) :=
  if room ≤ 1 && !scopes.isEmpty then .error (Stack.exceeded "")
  else .ok (w.policy.classesFor scopes)

/-- The classes of the node at a cursor, when so many levels are left for it. -/
def Setting.classesAt (w : Setting) (room : Nat) (c : Cursor) : Except Trace (List String) := do
  enter room
  let scopes ← w.resolver c w.source
  w.classesIn room scopes

mutual

/-- The span of the node at a cursor for the range from `start` to `stop`, when so many levels are
left for it. -/
def spanOf (w : Setting) (room : Nat) (c : Cursor) (start stop : Nat) : Node → Except Trace Span
  | .mk _ _ _ _ children _ _ => do
    let classes ← w.classesAt room c
    let pieces ← piecesOf w (room - 1) c 0 start stop children
    pure ⟨classes, pieces⟩

/-- The pieces from `position` to `stop` for the children of the node at a cursor, the first of
which has the place `i`, when so many levels are left for each. -/
def piecesOf (w : Setting) (room : Nat) (c : Cursor) (i position stop : Nat) :
    List Node → Except Trace (List Piece)
  | [] => w.gap position stop
  | n :: rest =>
    let first := max n.start.toNat position
    let last := min n.stop.toNat stop
    if first < last then do
      let before ← w.gap position first
      let span ← spanOf w room (c.toChild i n) first last n
      let after ← piecesOf w room c (i + 1) last stop rest
      pure (before ++ span.toPiece :: after)
    else piecesOf w room c (i + 1) position stop rest

end

/-- The span of a whole source with a syntax tree, when so many levels are left for its root. -/
def spanOfSource (w : Setting) (room : Nat) (root : Node) : Except Trace Span := do
  let size := w.source.length
  let start := min root.start.toNat size
  let stop := min (max root.stop.toNat start) size
  if start < stop then
    let span ← spanOf w room (.ofRoot root) start stop root
    if start = 0 && stop = size then pure span
    else
      let before ← w.gap 0 start
      let after ← w.gap stop size
      pure ⟨[], before ++ span.toPiece :: after⟩
  else
    enter room
    let before ← w.gap 0 start
    let after ← w.gap stop size
    pure ⟨[], before ++ after⟩

/-- The name of a language in messages. -/
def languageLabel (language : Option String) : String :=
  match language with
  | some l => if l.isEmpty then "unknown" else l
  | none => "unknown"

/-- Report a failure of the parser as a failure to highlight, unless it is one already. -/
def inParsing (language : Option String) (t : Trace) : Trace :=
  if t.kind = .parse || !t.kind.isOrdinary then t
  else t.raiseFrom (.inParse language
    ("Grammar for '" ++ languageLabel language ++ "' failed to parse: " ++ t.message))

/-- Report a defect of the tree as a failure to highlight; other failures pass. -/
def inWalk (language : Option String) (t : Trace) : Trace :=
  if t.kind.isTreeDefect then t.raiseFrom (.inParse language
    ("Cannot highlight '" ++ languageLabel language ++ "' syntax tree: " ++ t.message))
  else t

/-- Highlight a source with a grammar, when so many levels are left for the root of its tree. A
source without bytes is no defect of the tree. -/
def highlight (room : Nat) (g : Grammar) (source : Wide) (policy : ClassPolicy)
    (language : Option String) : Except Trace Span := do
  let bytes ← source.encode
  match ← (g.parse bytes).mapError (inParsing language) with
  | none => .error (.ofFailure (.inParse language
      ("Grammar for '" ++ languageLabel language ++ "' returned no syntax tree")))
  | some root =>
    let resolver ← g.resolver
    (spanOfSource ⟨resolver, bytes, policy⟩ room root).mapError (inWalk language)

end Highlight

end CodeHighlight
