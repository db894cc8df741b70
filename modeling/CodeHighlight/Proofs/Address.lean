import CodeHighlight.Tree
import Mathlib.Tactic

/-!
# Addresses of nodes

Two nodes of a tree can look alike, so a node is told apart by its address: the way down to it from
the root. The address of a listed node ends in its entry among the children of its parent, that of a
stray does not. A cursor is what a node sees from its address (`Node.cursorAt?`): the cursor above
it is the one at the address of the parent (`parent?_cursorAt?`), and its place is the entry that
the address ends in (`place?_cursorAt?`).
-/

namespace CodeHighlight

/-- One way down from a node. -/
inductive Branch where
  | child (i : ℕ)
  | stray (i : ℕ)
  deriving DecidableEq

/-- The way down to a node from the root, the last branch first. -/
abbrev Address := List Branch

namespace Node

/-- The node behind a branch. -/
def below? (n : Node) : Branch → Option Node
  | .child i => n.children[i]?
  | .stray i => n.strays[i]?

/-- The node at an address. -/
def at? (root : Node) : Address → Option Node
  | [] => some root
  | b :: up => (root.at? up).bind fun n => n.below? b

/-- The address of the parent of the node at an address; a detached node has no parent. -/
def parentOf? (root : Node) : Address → Option Address
  | [] => none
  | b :: up => if (root.at? (b :: up)).any (·.attached) then some up else none

/-- The node at an address is the entry `i` of the children of its parent. -/
def isEntry (root : Node) (a : Address) (i : ℕ) : Bool :=
  (root.parentOf? a).any fun p => a = .child i :: p

/-- The cursor behind a branch. -/
def stepCursor? (c : Cursor) : Branch → Option Cursor
  | .child i => c.node.children[i]?.map (c.toChild i)
  | .stray i => c.node.strays[i]?.map c.toStray

/-- The cursor at an address. -/
def cursorAt? (root : Node) : Address → Option Cursor
  | [] => some (.ofRoot root)
  | b :: up => (root.cursorAt? up).bind fun c => stepCursor? c b

end Node

/-! ### What a cursor sees -/

section

variable {root : Node} {a : Address} {c d : Cursor} {b : Branch}

/-- The place that a branch leads to. -/
def Branch.place? : Branch → Option ℕ
  | .child i => some i
  | .stray _ => none

theorem Node.stepCursor?_eq_some_iff :
    Node.stepCursor? c b = some d ↔ ∃ n, c.node.below? b = some n ∧ c.down b.place? n = d := by
  cases b <;> simp [Node.stepCursor?, Node.below?, Branch.place?, Cursor.toChild, Cursor.toStray]

theorem Node.node_cursorAt? (h : root.cursorAt? a = some c) : root.at? a = some c.node := by
  induction a generalizing c with
  | nil => cases h; rfl
  | cons b up ih =>
    obtain ⟨p, hp, hc⟩ := Option.bind_eq_some_iff.1 h
    obtain ⟨n, hn, rfl⟩ := Node.stepCursor?_eq_some_iff.1 hc
    rw [Node.at?, ih hp]
    exact hn

/-- The cursor above a node is the one at the address of its parent. -/
theorem Node.parent?_cursorAt? (h : root.cursorAt? a = some c) :
    c.parent? = (root.parentOf? a).bind root.cursorAt? := by
  cases a with
  | nil => cases h; rfl
  | cons b up =>
    have hat := Node.node_cursorAt? h
    obtain ⟨p, hp, hc⟩ := Option.bind_eq_some_iff.1 h
    obtain ⟨n, hn, rfl⟩ := Node.stepCursor?_eq_some_iff.1 hc
    rw [Node.parentOf?, hat]
    cases ha : n.attached <;> simp [Cursor.down, Cursor.parent?, ha, hp]

/-- The parent of a node with a cursor has a cursor. -/
theorem Node.exists_cursorAt?_parent {p : Address} (h : root.cursorAt? a = some c)
    (hp : root.parentOf? a = some p) : ∃ d, root.cursorAt? p = some d := by
  cases a with
  | nil => cases hp
  | cons b up =>
    obtain ⟨d, hd, -⟩ := Option.bind_eq_some_iff.1 h
    rw [Node.parentOf?] at hp
    split_ifs at hp
    cases hp
    exact ⟨d, hd⟩

/-- The place of a node is the entry that its address ends in, if it sees its parent. -/
theorem Node.place?_cursorAt? (h : root.cursorAt? a = some c) (i : ℕ) :
    c.place? = some i ↔ root.isEntry a i = true := by
  cases a with
  | nil => cases h; simp [Cursor.ofRoot, Cursor.place?, Node.isEntry, Node.parentOf?]
  | cons b up =>
    have hat := Node.node_cursorAt? h
    obtain ⟨p, hp, hc⟩ := Option.bind_eq_some_iff.1 h
    obtain ⟨n, hn, rfl⟩ := Node.stepCursor?_eq_some_iff.1 hc
    rw [Node.isEntry, Node.parentOf?, hat]
    cases ha : n.attached <;> cases b <;>
      simp [Cursor.down, Cursor.place?, Branch.place?, ha]

end

end CodeHighlight
