import CodeHighlight.Data.Entries
import CodeHighlight.Text.Blank
import CodeHighlight.Text.Wide

/-!
# Markup trees

A document as a tree of elements and texts. Every element has a number of its own, by which it is
told apart from elements that look alike. What an element is called and which attributes it has is
its `Tag`.

Texts have kinds: the text of an ordinary element consists of plain texts and character data
sections, and leaves out comments, declarations, and the texts that stand inside scripts, style
sheets, templates and ruby annotations.
-/

namespace CodeHighlight.Html
open Text (Wide)

/-- The kinds of text. -/
inductive TextKind where
  | plain
  | comment
  | declaration
  | doctype
  | processing
  | cdata
  | script
  | stylesheet
  | template
  | rubyText
  | rubyParen
  deriving DecidableEq, Repr

/-- The value of an attribute: a text, or words when the attribute holds a list. -/
inductive AttributeValue where
  | text (s : String)
  | words (ws : List String)
  deriving DecidableEq, Repr

namespace AttributeValue

/-- A value as one text. -/
def toText : AttributeValue → String
  | .text s => s
  | .words ws => " ".intercalate ws

/-- The words of a value. -/
def classNames : AttributeValue → List String
  | .text s => Text.words s
  | .words ws => ws

/-- A value as one text, unless it is an empty list. -/
def text? : AttributeValue → Option String
  | .text s => some s
  | .words [] => none
  | .words ws => some (" ".intercalate ws)

end AttributeValue

/-- What an element is: its number, its name, whether it is written without an end tag when it is
empty, and its attributes. -/
structure Tag where
  id : Nat
  name : String
  isVoid : Bool := false
  attributes : Entries String AttributeValue := []
  deriving DecidableEq, Repr

namespace Tag

/-- The value of an attribute. -/
def attribute? (t : Tag) (name : String) : Option AttributeValue := Entries.get? t.attributes name

/-- The classes. -/
def classes (t : Tag) : List String := ((t.attribute? "class").map (·.classNames)).getD []

/-- Replace the classes. -/
def setClasses (t : Tag) (classes : List String) : Tag :=
  { t with attributes := Entries.insert t.attributes "class" (.words classes) }

end Tag

/-- An element with its children, or a text. -/
inductive Node where
  | element (tag : Tag) (children : List Node)
  | text (kind : TextKind) (s : Wide)

/-- An element with its children. -/
structure Element where
  tag : Tag
  children : List Node

/-- An element as a node. -/
def Element.toNode (e : Element) : Node := .element e.tag e.children

/-- The kind of the texts inside the elements that keep their texts apart. -/
def textKindInside? (name : String) : Option TextKind :=
  if name = "rt" then some .rubyText
  else if name = "rp" then some .rubyParen
  else if name = "style" then some .stylesheet
  else if name = "script" then some .script
  else if name = "template" then some .template
  else none

namespace Node

mutual

/-- The texts below a node whose kind is wanted, joined. -/
def textOf (wanted : TextKind → Bool) : Node → Wide
  | .element _ children => textOfAll wanted children
  | .text kind s => if wanted kind then s else []

/-- The texts below several nodes whose kind is wanted, joined. -/
def textOfAll (wanted : TextKind → Bool) : List Node → Wide
  | [] => []
  | n :: rest => textOf wanted n ++ textOfAll wanted rest

end

mutual

/-- The elements at and below a node, outer ones first. -/
def elements : Node → List Element
  | .element tag children => ⟨tag, children⟩ :: elementsOf children
  | .text _ _ => []

/-- The elements at and below several nodes, outer ones first. -/
def elementsOf : List Node → List Element
  | [] => []
  | n :: rest => elements n ++ elementsOf rest

end

mutual

/-- The number of levels of elements at and below a node. -/
def height : Node → Nat
  | .element _ children => heightOf children + 1
  | .text _ _ => 0

/-- The greatest height of several nodes. -/
def heightOf : List Node → Nat
  | [] => 0
  | n :: rest => max (height n) (heightOf rest)

end

mutual

/-- A node without the elements with a number. -/
def without (id : Nat) : Node → List Node
  | .element tag children =>
    if tag.id = id then [] else [.element tag (withoutAll id children)]
  | .text kind s => [.text kind s]

/-- Nodes without the elements with a number. -/
def withoutAll (id : Nat) : List Node → List Node
  | [] => []
  | n :: rest => without id n ++ withoutAll id rest

end

end Node

namespace Element

/-- The kinds of text that count as the text of an element. -/
def counts (name : String) (kind : TextKind) : Bool :=
  match textKindInside? name with
  | some k => kind = k
  | none => kind = .plain || kind = .cdata

/-- The text of an element. -/
def text (e : Element) : Wide := Node.textOfAll (counts e.tag.name) e.children

/-- The first child that is an element with the name. -/
def child? (e : Element) (name : String) : Option Element :=
  e.children.findSome? fun n =>
    match n with
    | .element tag children => if tag.name = name then some ⟨tag, children⟩ else none
    | .text _ _ => none

/-- The first element with the name below the element, outer ones first. -/
def find? (e : Element) (name : String) : Option Element :=
  (Node.elementsOf e.children).find? fun x => x.tag.name = name

end Element

/-- A document: its root, and a number that none of its elements has. -/
structure Document where
  root : Element
  nextId : Nat

namespace Document

/-- The name of the root of a document. -/
def rootName : String := "[document]"

/-- The document without content. -/
def empty : Document := ⟨⟨{ id := 1, name := rootName }, []⟩, 2⟩

/-- The elements below the root, outer ones first. -/
def elements (d : Document) : List Element := Node.elementsOf d.root.children

end Document

/-- The document that an element belongs to, and whether it is the document `d` that the element was
found in. A document that is given is taken; otherwise an element that was detached from `d` belongs
to none, and the empty document stands for it. -/
def ownerDocument (d : Document) (given detached : Bool) : Document × Bool :=
  if given || !detached then (d, true) else (.empty, false)

end CodeHighlight.Html
