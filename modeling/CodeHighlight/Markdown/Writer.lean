import CodeHighlight.Markdown.Atom
import CodeHighlight.Text.Digits

/-!
# Writing HTML

The atoms of a finished document as HTML. Elements that stand as blocks are written on lines of
their own, a line break ends its line, and code ends with exactly one line feed. Characters that are
markup in HTML are replaced, except for an ampersand that starts a reference. A paragraph of nothing
but HTML that is a block itself is that HTML.
-/

namespace CodeHighlight.Markdown

namespace Atom

/-- The text and elements after an element: its tail and the rest. -/
def tailOf (atoms : List Atom) : List Atom × List Atom := (leading atoms, fromElement atoms)

/-- Code without the blanks at its end and with one line feed. -/
def trimCode : List Atom → List Atom
  | .element "code" attributes content :: rest =>
    .element "code" attributes (stripEnd content ++ [.settled '\n']) :: rest
  | atoms => atoms

/-- The element stands as a block. -/
def isBlockElement (a : Atom) : Bool := (tag? a).any isBlockTag

mutual

/-- Put the elements inside an atom on lines of their own. -/
def layOut : Atom → Atom
  | .element tag attributes content =>
    if tag = "pre" then .element tag attributes (trimCode content)
    else
      let inner := layOutAll (isBlockTag tag && tag != "code") false content
      .element tag attributes
        (if isBlockTag tag && tag != "code" && (leading content).all isBlank
            && (fromElement content).head?.any isBlockElement
          then lineFeed :: fromElement inner else inner)
  | a => a

/-- Put elements on lines of their own. `inBlock` says that they are inside a block, and `skipping`
that blanks are left out, because a line feed is there already. -/
def layOutAll (inBlock skipping : Bool) : List Atom → List Atom
  | [] => []
  | a :: rest =>
    if skipping && a.isBlank then layOutAll inBlock true rest
    else
      let isBreak := tag? a == some "br"
      if isBreak then
        layOut a :: lineFeed :: layOutAll inBlock ((leading rest).all isBlank) rest
      else if inBlock && isBlockElement a then
        if (leading rest).all isBlank then layOut a :: lineFeed :: layOutAll inBlock true rest
        else layOut a :: layOutAll inBlock false rest
      else layOut a :: layOutAll inBlock false rest

end

/-- The elements without content and end tag. -/
def voidTags : List String :=
  ["area", "base", "basefont", "br", "col", "frame", "hr", "img", "input", "isindex", "link",
    "meta", "param"]

/-- A semicolon after at least one character of a class. -/
def endsReference (isInside : Char → Bool) (cs : List Char) : Bool :=
  let name := cs.takeWhile isInside
  !name.isEmpty && (cs.drop name.length).head? == some ';'

/-- What follows an ampersand makes it a reference. -/
def isReference (cs : List Char) : Bool :=
  match cs with
  | '#' :: c :: rest =>
    endsReference Char.isDigit (c :: rest)
      || ((c = 'x' || c = 'X') && endsReference Text.isHexDigit rest)
  | cs => endsReference Char.isAlphanum cs

/-- A character of a text, given the characters that follow it. -/
def escapeIn (c : Char) (rest : List Char) : String :=
  if c = '&' && isReference rest then "&" else Html.escapeChar c

/-- A value of an attribute. -/
def escapeValue : List Char → String
  | [] => ""
  | c :: rest => (if c = '"' then "&quot;" else escapeIn c rest) ++ escapeValue rest

/-- The attributes of an element, in the order of their names. -/
def attributesText (attributes : List (String × String)) : String :=
  String.join ((attributes.mergeSort fun a b => a.1 ≤ b.1).map fun a =>
    " " ++ a.1 ++ "=\"" ++ escapeValue a.2.toList ++ "\"")

mutual

/-- An atom as HTML, given the atoms that follow it. -/
def write (rest : List Atom) : Atom → String
  | .char c => escapeIn c ((rest.takeWhile fun a => (char? a).isSome).filterMap char?)
  | .settled c => Html.escapeChar c
  | .html s => s
  | .element tag attributes content =>
    match tag, attributes, content with
    | "p", [], [.html s] => if isBlockHtml s then s else "<p>" ++ s ++ "</p>"
    | tag, attributes, content =>
      let start := "<" ++ tag ++ attributesText attributes
      if voidTags.contains tag then start ++ " />"
      else start ++ ">" ++ writeAll content ++ "</" ++ tag ++ ">"

/-- Atoms as HTML. -/
def writeAll : List Atom → String
  | [] => ""
  | a :: rest => write rest a ++ writeAll rest

end

/-- The atoms of a document as HTML. -/
def toHtml (atoms : List Atom) : String :=
  Text.trim (writeAll (layOutAll true false atoms))

end Atom

end CodeHighlight.Markdown
