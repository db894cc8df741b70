import CodeHighlight.Html.Node

/-!
# Printing markup

The text of a document. Attributes are written in the order of their names, and an element without
an end tag is closed in its start tag. Texts inside scripts and style sheets are written as they
are, all others with the markup characters replaced.
-/

namespace CodeHighlight.Html
open Text (CodePoint Wide)

/-- A character of a text or an attribute value. -/
def escapeChar (c : Char) : String :=
  if c = '&' then "&amp;"
  else if c = '<' then "&lt;"
  else if c = '>' then "&gt;"
  else String.singleton c

/-- A value with the markup characters replaced. -/
def escape (s : String) : String := String.join (s.toList.map escapeChar)

/-- A code point of a text. -/
def escapePoint : CodePoint → Wide
  | .char c => escapeChar c
  | p => [p]

/-- A text with the markup characters replaced. -/
def escapeText (t : Wide) : Wide := t.flatMap escapePoint

/-- A value between quotes: single quotes when it holds double quotes only. -/
def quoteValue (s : String) : String :=
  let cs := s.toList
  if cs.contains '"' then
    if cs.contains '\x27' then
      "\"" ++ String.join (cs.map fun c => if c = '"' then "&quot;" else String.singleton c) ++ "\""
    else "'" ++ s ++ "'"
  else "\"" ++ s ++ "\""

/-- An attribute in a start tag. -/
def attributeText (a : String × AttributeValue) : String :=
  " " ++ a.1 ++ "=" ++ quoteValue (escape a.2.toText)

/-- The name and the attributes of a start tag. -/
def Tag.text (t : Tag) : String :=
  t.name ++ String.join ((t.attributes.mergeSort fun a b => a.1 ≤ b.1).map attributeText)

/-- The elements whose texts are written as they are. -/
def isRaw (name : String) : Bool := name = "script" || name = "style"

/-- A text inside an element with the given name. -/
def textIn (name : String) (kind : TextKind) (s : Wide) : Wide :=
  let between (before after : String) : Wide := before ++ s ++ after
  match kind with
  | .comment => between "<!--" "-->"
  | .declaration => between "<?" "?>"
  | .doctype => between "<!DOCTYPE " ">\n"
  | .processing => between "<?" ">"
  | .cdata => between "<![CDATA[" "]]>"
  | _ => if isRaw name then s else escapeText s

namespace Node

mutual

/-- A node inside an element with the given name. -/
def print (outer : String) : Node → Wide
  | .element tag children =>
    if tag.isVoid && children.isEmpty then ↑("<" ++ tag.text ++ "/>")
    else
      ↑("<" ++ tag.text ++ ">") ++ printAll tag.name children ++ ↑("</" ++ tag.name ++ ">")
  | .text kind s => textIn outer kind s

/-- The nodes inside an element with the given name. -/
def printAll (outer : String) : List Node → Wide
  | [] => []
  | n :: rest => print outer n ++ printAll outer rest

end

end Node

/-- An element as text. -/
def Element.print (e : Element) : Wide := e.toNode.print ""

/-- A document as text. -/
def Document.print (d : Document) : Wide := Node.printAll d.root.tag.name d.root.children

end CodeHighlight.Html
