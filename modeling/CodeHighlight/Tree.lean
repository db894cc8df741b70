/-!
# Syntax trees

A `Node` is a syntax tree over the bytes of a source: a label, a range of byte offsets, and the
nodes below it. The offsets are any integers; nothing is assumed about how the ranges of parents
and children lie to each other.

A node can also be the parent of nodes that it does not list (`strays`), and a node can be listed
without having a parent (`attached = false`). What a node sees above it is therefore not a property
of the node but of the way it was reached: a `Cursor` is a node with its parents, each of them with
the place that the node below holds among its children.
-/

namespace CodeHighlight

/-- A syntax tree. Labels of `named` nodes are rule names, those of other nodes literal tokens. -/
structure Node where
  label : String
  named : Bool := true
  start : Int
  stop : Int
  children : List Node := []
  strays : List Node := []
  attached : Bool := true
  deriving Inhabited

/-- A node and its parents, nearest first. With each parent goes the place of the node below it
among that parent's children, or nothing when it is not listed there. -/
structure Cursor where
  node : Node
  above : List (Node × Option Nat) := []

namespace Cursor

/-- The cursor at a root. -/
def ofRoot (root : Node) : Cursor := ⟨root, []⟩

/-- The parent, with the parents above it. -/
def parent? (c : Cursor) : Option Cursor :=
  match c.above with
  | [] => none
  | (p, _) :: rest => some ⟨p, rest⟩

/-- The place of the node among its parent's children. -/
def place? (c : Cursor) : Option Nat :=
  match c.above with
  | [] => none
  | (_, i) :: _ => i

/-- The cursor at a node reached from `c`; a detached node sees nothing above it. -/
def down (c : Cursor) (place : Option Nat) (n : Node) : Cursor :=
  ⟨n, if n.attached then (c.node, place) :: c.above else []⟩

/-- The cursor at the child with the given place. -/
def toChild (c : Cursor) (place : Nat) (n : Node) : Cursor := c.down (some place) n

/-- The cursor at a node whose parent does not list it. -/
def toStray (c : Cursor) (n : Node) : Cursor := c.down none n

end Cursor

mutual

/-- The cursors of a tree: a node, the nodes below its children, the nodes below its strays. -/
def Node.cursors (c : Cursor) : Node → List Cursor
  | .mk _ _ _ _ children strays _ =>
    c :: (Node.cursorsOfChildren c 0 children ++ Node.cursorsOfStrays c strays)

/-- The cursors below the children of the node at `c`, the first of which has the place `i`. -/
def Node.cursorsOfChildren (c : Cursor) (i : Nat) : List Node → List Cursor
  | [] => []
  | n :: rest => Node.cursors (c.toChild i n) n ++ Node.cursorsOfChildren c (i + 1) rest

/-- The cursors below the strays of the node at `c`. -/
def Node.cursorsOfStrays (c : Cursor) : List Node → List Cursor
  | [] => []
  | n :: rest => Node.cursors (c.toStray n) n ++ Node.cursorsOfStrays c rest

end

mutual

/-- The number of levels of a tree; nodes that are not listed do not count. -/
def Node.height : Node → Nat
  | .mk _ _ _ _ children _ _ => Node.heightOf children + 1

/-- The greatest height of several trees. -/
def Node.heightOf : List Node → Nat
  | [] => 0
  | n :: rest => max (Node.height n) (Node.heightOf rest)

end

/-- The cursors of a tree, parents before the nodes below them. -/
def Node.preorder (root : Node) : List Cursor := Node.cursors (.ofRoot root) root

end CodeHighlight
