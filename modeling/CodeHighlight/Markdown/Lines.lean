import CodeHighlight.Text.Blank
import CodeHighlight.Text.Columns

/-!
# Lines of a document

The text of a document as lines: line breaks are line feeds, tabs are spaces up to the next stop,
lines of nothing but spaces are empty, and two empty lines stand at the end. The two characters that
mark what is finished already are left out.
-/

namespace CodeHighlight.Markdown

/-- The distance between tab stops, which is also the width of an indentation. -/
def tabWidth : Nat := 4

/-- A line of nothing but spaces as an empty one. -/
def clearLine (line : List Char) : List Char := if line.all (· = ' ') then [] else line

/-- The lines of a document; the first one keeps its spaces. -/
def prepare (source : String) : List (List Char) :=
  let cs := source.toList.filter fun c => c != '\x02' && c != '\x03'
  let cs := Text.unifyBreaks cs ++ ['\n', '\n']
  match Text.cutAt '\n' (Text.expandTabs tabWidth (fun _ => 1) 0 cs) with
  | [] => []
  | first :: rest => first :: rest.map clearLine

end CodeHighlight.Markdown
