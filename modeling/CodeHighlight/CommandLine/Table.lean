import CodeHighlight.Text.Blank
import CodeHighlight.Text.Columns

/-!
# Tables

A table with a title, a header and rows, drawn in a box. Columns are as wide as their widest cell,
and cells are aligned to the left. The title is centred above the box and broken between words where
it is wider.
-/

namespace CodeHighlight.CommandLine

/-- A table. -/
structure Table where
  title : String
  header : List String
  rows : List (List String)

namespace Table

/-- So many copies of a text. -/
def copies (n : Nat) (s : String) : String := String.join (List.replicate n s)

/-- A text with blanks up to a width. -/
def padded (width : Nat) (s : String) : String := s ++ copies (width - Text.columns s) " "

/-- A text in the middle of a width. -/
def centred (width : Nat) (s : String) : String :=
  padded width (copies ((width - Text.columns s) / 2) " " ++ s)

/-- The lines of a cell. -/
def cellLines (cell : String) : List String :=
  (Text.cutAt '\n' (Text.shown cell).toList).map String.ofList

/-- The width of a cell: that of its widest line. -/
def cellWidth (cell : String) : Nat :=
  (cellLines cell).foldl (fun n line => max n (Text.columns line)) 0

/-- All rows, the header first. -/
def allRows (t : Table) : List (List String) := t.header :: t.rows

/-- The width of a column. -/
def columnWidth (t : Table) (i : Nat) : Nat :=
  t.allRows.foldl (fun n row => max n (cellWidth (row[i]?.getD ""))) 0

/-- The widths of the columns. -/
def widths (t : Table) : List Nat := (List.range t.header.length).map t.columnWidth

/-- The width of the box. -/
def width (t : Table) : Nat := t.widths.foldl (fun n w => n + w + 3) 1

/-- A horizontal line of the box. -/
def border (t : Table) (left middle right : String) : String :=
  left ++ middle.intercalate (t.widths.map fun w => copies (w + 2) "─") ++ right

/-- One line of a row. -/
def rowLine (t : Table) (cells : List String) : String :=
  "│ " ++ " │ ".intercalate (List.zipWith padded t.widths cells) ++ " │"

/-- The lines of a row, which is as high as its highest cell. -/
def rowLines (t : Table) (row : List String) : List String :=
  let cells := row.map cellLines
  let height := cells.foldl (fun n lines => max n lines.length) 1
  (List.range height).map fun i => t.rowLine (cells.map fun lines => lines[i]?.getD "")

/-- Words as lines of a width, `line` being under way. -/
def wrap (width : Nat) (line : String) : List String → List String
  | [] => [line]
  | w :: rest =>
    if Text.columns line + 1 + Text.columns w ≤ width then wrap width (line ++ " " ++ w) rest
    else line :: wrap width w rest

/-- The lines of the title. -/
def titleLines (t : Table) : List String :=
  match Text.words t.title with
  | [] => []
  | w :: rest => (wrap t.width w rest).map (centred t.width)

/-- The lines of the table. -/
def lines (t : Table) : List String :=
  t.titleLines ++ [t.border "┌" "┬" "┐"] ++ t.rowLines t.header ++ [t.border "├" "┼" "┤"]
    ++ t.rows.flatMap t.rowLines ++ [t.border "└" "┴" "┘"]

/-- The text of the table. -/
def text (t : Table) : String := String.join (t.lines.map (· ++ "\n"))

end Table

end CodeHighlight.CommandLine
