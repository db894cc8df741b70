import CodeHighlight.Config
import CodeHighlight.Diagnostics
import CodeHighlight.Highlight
import CodeHighlight.Html.Reader
import CodeHighlight.Rules.Engine

/-!
# Code blocks

A code block is a preformatted element with a code element among its children. Its language is
named by a class of the code element, or else of the preformatted element.

`Block.transform` highlights the blocks of a document. A block is left as it is when it carries the
marker class, when its language is not in the registry, or when it cannot be highlighted; otherwise
its classes are replaced and the code becomes a span. Nothing else in the document changes.
-/

namespace CodeHighlight
open Html (Element Tag Document)
open Text (Wide)

/-- A code block as it was found. -/
structure Block where
  lang : Option String
  note : Option String
  value : Wide
  deriving DecidableEq, Repr

/-- A highlighted block with the classes and the span that replaced it. -/
structure Highlighted where
  block : Block
  classes : List String
  span : Span

/-- What a run over a document reports: the highlighted blocks, the skipped ones, and the
diagnostics, in order. -/
structure Report where
  blocks : List Highlighted := []
  skipped : List Block := []
  log : List Diagnostic := []

namespace Piece

/-- The tag of a span. -/
def tagOf (name : String) (classes : List String) : Tag where
  id := 0
  name := name
  isVoid := Html.voidNames.contains name
  attributes := if classes.isEmpty then [] else [("class", .words classes)]

mutual

/-- A piece of highlighted text as markup. -/
def toNode (name : String) : Piece → Html.Node
  | .run t => .text .plain t
  | .span classes children => .element (tagOf name classes) (toNodes name children)

/-- Pieces of highlighted text as markup. -/
def toNodes (name : String) : List Piece → List Html.Node
  | [] => []
  | p :: rest => toNode name p :: toNodes name rest

end

end Piece

/-- A span as an element with the given name. -/
def Span.toNode (s : Span) (name : String) : Html.Node := s.toPiece.toNode name

namespace Block

/-- The beginnings of classes that name a language. -/
def languageMarks : List String := ["language-", "lang-"]

/-- The language that a class names. -/
def languageOfClass (name : String) : Option String :=
  languageMarks.findSome? fun mark =>
    if name.startsWith mark && mark.length < name.length then
      some (String.ofList (name.toList.drop mark.length))
    else none

/-- The language that the classes of an element name: that of the first one which does. -/
def languageOf (t : Tag) : Option String := t.classes.findSome? languageOfClass

/-- The note that goes with an element, if it is not empty. -/
def noteOf (t : Tag) : Option String :=
  ((t.attribute? "data-meta").bind (·.text?)).bind fun s => if s.isEmpty then none else some s

/-- The note of a block: that of the code, or else that of the outer element, which may be empty. -/
def noteOfBoth (code outer : Tag) : Option String :=
  (noteOf code) <|> ((outer.attribute? "data-meta").bind (·.text?))

/-- The code block of a preformatted element. -/
def ofElement? (e : Element) : Option Block :=
  (e.child? "code").map fun code =>
    { lang := languageOf code.tag <|> languageOf e.tag
      note := noteOfBoth code.tag e.tag
      value := code.text }

/-- The classes of a highlighted block. -/
def classesFor (language marker : String) : List String := [marker, "language-" ++ language]

/-- Replace the content of the first code element among some nodes. -/
def replaceCode (content : List Html.Node) : List Html.Node → List Html.Node
  | [] => []
  | .element tag children :: rest =>
    if tag.name = "code" then .element tag content :: rest
    else .element tag children :: replaceCode content rest
  | n :: rest => n :: replaceCode content rest

/-- A preformatted element with its code replaced by a span. -/
def replaced (e : Element) (classes : List String) (s : Span) : Element :=
  ⟨e.tag.setClasses classes, replaceCode [s.toNode "span"] e.children⟩

/-- The diagnostics of a block that could not be highlighted. -/
def skipDiagnostics (language : String) (t : Trace) : List Diagnostic :=
  [.warning ("Unable to highlight '" ++ language ++ "' code block: " ++ t.message) (some t),
   .event (.highlightSkipped language t.message)]

/-- Highlight a block with the grammar of its language, if the registry has it, when so many levels
are left for the root of its tree. -/
def highlight? (room : Nat) (c : Config) (r : Registry) (b : Block) :
    Option (String × Except Trace Span) :=
  match b.lang with
  | some language =>
    if Registry.canHighlight r (some language) then
      some (language, do
        let g ← Registry.find r (.str language)
        Highlight.highlight room g b.value c.policy (some language))
    else none
  | none => none

/-- Highlight the code block of a preformatted element. A defect of its grammar skips the block;
any other failure ends the run. -/
def handler (k : Stack) (c : Config) (r : Registry) : Handler Report := fun e w =>
  if w.room < k.reading then (e, w, some (Stack.exceeded ""))
  else if e.tag.classes.contains c.marker then (e, w, none)
  else
    match ofElement? e with
    | none => (e, w, none)
    | some b =>
      match highlight? (w.room - k.parsing) c r b with
      | none => (e, { w with data := { w.data with skipped := w.data.skipped ++ [b] } }, none)
      | some (language, .error t) =>
        if t.kind = .parse then
          (e, { w with data := { w.data with
                  skipped := w.data.skipped ++ [b]
                  log := w.data.log ++ skipDiagnostics language t } }, none)
        else (e, w, some t)
      | some (language, .ok span) =>
        if w.room - k.marking < span.height then (e, w, some (Stack.exceeded ""))
        else
          let classes := classesFor language c.marker
          (replaced e classes span,
            { w with data := { w.data with
                blocks := w.data.blocks ++ [⟨b, classes, span⟩] } }, none)

/-- The rule for code blocks. -/
def rule (k : Stack) (c : Config) (r : Registry) : Rule Report where
  priority := 40
  tags := ["pre"]
  name := "highlight_code_blocks"
  handler := handler k c r
  nestable := false

/-- The table with the rule for code blocks. -/
def rules (k : Stack) (c : Config) (r : Registry) : RuleTable Report :=
  RuleTable.register [] (rule k c r)

/-- Highlight the code blocks of a document. With a failure come the document and the report as far
as they got. -/
def transform (k : Stack) (c : Config) (r : Registry) (d : Document) :
    Document × Report × Option Trace :=
  let (root, w, t) := (rules k c r).run k.levels d.root { nextId := d.nextId, data := {} }
  (⟨root, w.nextId⟩, w.data, t)

/-- Highlight the code blocks of a document, or fail. -/
def transformed (k : Stack) (c : Config) (r : Registry) (d : Document) :
    Except Trace (Document × Report) :=
  match transform k c r d with
  | (_, _, some t) => .error t
  | (d, report, none) => .ok (d, report)

end Block

end CodeHighlight
