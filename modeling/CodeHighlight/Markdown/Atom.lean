import CodeHighlight.Html.Printer
import CodeHighlight.Text.Alphanumeric
import CodeHighlight.Text.Lowercase

/-!
# Atoms

A document in Markdown is a list of atoms all the way from its text to its HTML. At first every atom
is a character; reading turns characters into settled ones, which are no markup any more, into
finished HTML, and into elements with atoms of their own. Text is cut into lines and stripped of
blanks whatever the atoms in it are.
-/

namespace CodeHighlight.Markdown

/-- A character that may still be markup, one that stands for itself, finished HTML, or an
element. -/
inductive Atom where
  | char (c : Char)
  | settled (c : Char)
  | html (s : String)
  | element (tag : String) (attributes : List (String × String)) (content : List Atom)
  deriving Inhabited

namespace Atom

/-- A character that may be markup. -/
def char? : Atom → Option Char
  | .char c => some c
  | _ => none

/-- The character `c`, which may be markup. -/
def isChar (c : Char) : Atom → Bool
  | .char d => d == c
  | _ => false

/-- A blank character. -/
def isBlank : Atom → Bool
  | .char c | .settled c => Text.isBlank c
  | _ => false

/-- A letter, a number or an underscore. -/
def isWord : Atom → Bool
  | .char c => Text.isWordChar c
  | _ => false

/-- An element. -/
def isElement : Atom → Bool
  | .element _ _ _ => true
  | _ => false

/-- The name of an element. -/
def tag? : Atom → Option String
  | .element tag _ _ => some tag
  | _ => none

/-- What an element holds. -/
def content : Atom → List Atom
  | .element _ _ content => content
  | _ => []

/-- An element with other content. -/
def withContent (new : List Atom) : Atom → Atom
  | .element tag attributes _ => .element tag attributes new
  | a => a

mutual

/-- An atom as plain text. -/
def text : Atom → String
  | .char c | .settled c => String.singleton c
  | .html s => s
  | .element _ _ content => textOf content

/-- Atoms as plain text. -/
def textOf : List Atom → String
  | [] => ""
  | a :: rest => text a ++ textOf rest

end

/-- The characters of a text. -/
def ofChars (cs : List Char) : List Atom := cs.map .char

/-- The characters of a text as settled ones. -/
def settle : Atom → Atom
  | .char c => .settled c
  | a => a

/-- A text as characters, with a mark in place of all other atoms. -/
def shadow (atoms : List Atom) : List Char := atoms.map fun a => (char? a).getD '\x02'

/-- The atoms without the blanks at the start. -/
def stripStart (atoms : List Atom) : List Atom := atoms.dropWhile isBlank

/-- The atoms without the blanks at the end. -/
def stripEnd (atoms : List Atom) : List Atom := (atoms.reverse.dropWhile isBlank).reverse

/-- The atoms without the blanks at both ends. -/
def strip (atoms : List Atom) : List Atom := stripEnd (stripStart atoms)

/-- A line feed. -/
def lineFeed : Atom := .char '\n'

/-- The lines between the line feeds; there is always one more line than line feeds. -/
def lines : List Atom → List (List Atom)
  | [] => [[]]
  | a :: rest =>
    if isChar '\n' a then [] :: lines rest
    else
      match lines rest with
      | [] => [[a]]
      | line :: more => (a :: line) :: more

/-- Lines joined by line feeds. -/
def unlines : List (List Atom) → List Atom
  | [] => []
  | [line] => line
  | line :: next :: rest => line ++ lineFeed :: unlines (next :: rest)

/-- The pieces between pairs of line feeds. -/
def chunks : List Atom → List (List Atom)
  | [] => [[]]
  | [a] => [[a]]
  | a :: b :: rest =>
    if isChar '\n' a && isChar '\n' b then [] :: chunks rest
    else
      match chunks (b :: rest) with
      | [] => [[a]]
      | chunk :: more => (a :: chunk) :: more

/-- The number of spaces at the start. -/
def indent (atoms : List Atom) : Nat := (atoms.takeWhile (isChar ' ')).length

/-- The atoms behind the spaces at the start. -/
def dropSpaces (atoms : List Atom) : List Atom := atoms.dropWhile (isChar ' ')

/-- Only spaces, or nothing. -/
def isSpaces (atoms : List Atom) : Bool := atoms.all (isChar ' ')

/-- The text starts with the characters `cs`. -/
def startsWith (cs : List Char) (atoms : List Atom) : Bool :=
  match cs, atoms with
  | [], _ => true
  | c :: cs, a :: rest => isChar c a && startsWith cs rest
  | _ :: _, [] => false

/-- The text before the first element. -/
def leading (atoms : List Atom) : List Atom := atoms.takeWhile fun a => !a.isElement

/-- The atoms from the first element on. -/
def fromElement (atoms : List Atom) : List Atom := atoms.dropWhile fun a => !a.isElement

/-- The text behind the last element. -/
def trailing (atoms : List Atom) : List Atom := (leading atoms.reverse).reverse

/-- The atoms up to the last element. -/
def upToElement (atoms : List Atom) : List Atom := (fromElement atoms.reverse).reverse

/-- The last element. -/
def last? (atoms : List Atom) : Option Atom := (fromElement atoms.reverse).head?

/-- The atoms with the last element replaced. -/
def setLast (atoms : List Atom) (new : Atom) : List Atom :=
  (upToElement atoms).dropLast ++ new :: trailing atoms

/-- The elements that stand as blocks of their own. -/
def blockTags : List String :=
  ["address", "article", "aside", "blockquote", "details", "div", "dl", "fieldset", "figcaption",
    "figure", "footer", "form", "h1", "h2", "h3", "h4", "h5", "h6", "header", "hgroup", "hr",
    "main", "menu", "nav", "ol", "p", "pre", "section", "table", "ul", "canvas", "colgroup", "dd",
    "body", "dt", "group", "html", "iframe", "li", "legend", "math", "map", "noscript", "output",
    "object", "option", "progress", "script", "style", "summary", "tbody", "td", "textarea",
    "tfoot", "th", "thead", "tr", "video", "center"]

/-- The name of an element that stands as a block of its own; a slash at its end does not count. -/
def isBlockTag (name : String) : Bool :=
  let cs := (Text.lower name).toList
  blockTags.contains (String.ofList (cs.reverse.dropWhile (· = '/')).reverse)

/-- HTML that starts with a tag of such an element, or with a comment or an instruction. -/
def isBlockHtml (s : String) : Bool :=
  match s.toList with
  | '<' :: rest =>
    let rest := if rest.head? = some '/' then rest.drop 1 else rest
    let name := rest.takeWhile fun c => c != ' ' && c != '>'
    match name with
    | [] => false
    | c :: _ => ['!', '?', '@', '%'].contains c || isBlockTag (String.ofList name)
  | _ => false

end Atom

end CodeHighlight.Markdown
