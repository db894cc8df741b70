/-!
# Spans

Highlighted text as a tree: runs of text, and spans with classes around further pieces.
-/

namespace CodeHighlight

/-- A run of text, or a span around further pieces. -/
inductive Piece where
  | run (text : String)
  | span (classes : List String) (children : List Piece)
  deriving Inhabited

/-- A span: its classes and what it encloses. -/
structure Span where
  classes : List String := []
  children : List Piece := []

/-- A span as a piece. -/
def Span.toPiece (s : Span) : Piece := .span s.classes s.children

namespace Piece

mutual

/-- The runs of a piece in order. -/
def runs : Piece → List String
  | .run t => [t]
  | .span _ children => runsOf children

/-- The runs of several pieces in order. -/
def runsOf : List Piece → List String
  | [] => []
  | p :: rest => runs p ++ runsOf rest

end

mutual

/-- The spans of a piece, outer ones first. -/
def spans : Piece → List Span
  | .run _ => []
  | .span classes children => ⟨classes, children⟩ :: spansOf children

/-- The spans of several pieces, outer ones first. -/
def spansOf : List Piece → List Span
  | [] => []
  | p :: rest => spans p ++ spansOf rest

end

mutual

/-- The number of levels of spans in a piece. -/
def height : Piece → Nat
  | .run _ => 0
  | .span _ children => heightOf children + 1

/-- The greatest height of several pieces. -/
def heightOf : List Piece → Nat
  | [] => 0
  | p :: rest => max (height p) (heightOf rest)

end

end Piece

namespace Span

/-- The number of levels of spans, the span itself included. -/
def height (s : Span) : Nat := s.toPiece.height

/-- The runs of text in order. -/
def runs (s : Span) : List String := Piece.runsOf s.children

/-- The text: all runs joined. -/
def text (s : Span) : String := String.join s.runs

/-- The span and the spans inside it, outer ones first. -/
def spans (s : Span) : List Span := s :: Piece.spansOf s.children

end Span

end CodeHighlight
