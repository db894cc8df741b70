import CodeHighlight.Html.Token

/-!
# Reading markup

Tokens as a tree. No element is implied and none is closed by another start tag: an end tag closes
everything up to the nearest open element of its name, and is ignored when there is none. What is
open at the end is closed there.

A void element is closed at its start tag. Its name is remembered, and the next end tag of that
name, also that of a self-closing start tag, only takes it off the list.

Blank text outside preformatted elements becomes one line break or one space.
-/

namespace CodeHighlight.Html
open Text (CodePoint Wide)

/-- The elements that have no content. -/
def voidNames : List String :=
  ["area", "base", "br", "col", "embed", "hr", "img", "input", "keygen", "link", "menuitem", "meta",
    "param", "source", "track", "wbr", "basefont", "bgsound", "command", "frame", "image",
    "isindex", "nextid", "spacer"]

/-- The attributes that hold a list of words, for an element. -/
def holdsWords (element name : String) : Bool :=
  ["class", "accesskey", "dropzone"].contains name ||
  [("a", "rel"), ("a", "rev"), ("link", "rel"), ("link", "rev"), ("td", "headers"),
    ("th", "headers"), ("form", "accept-charset"), ("object", "archive"), ("area", "rel"),
    ("icon", "sizes"), ("iframe", "sandbox"), ("output", "for")].contains (element, name)

/-- The elements in which blank text is kept. -/
def keepsBlanks (name : String) : Bool := name = "pre" || name = "textarea"

/-- A blank of ASCII other than the vertical tab. -/
def isSpace (c : Char) : Bool := c = ' ' || c = '\n' || c = '\t' || c = '\x0c' || c = '\r'

/-- A code point that is such a blank. -/
def isSpacePoint (p : CodePoint) : Bool := p.char?.any isSpace

/-- The name by which a document says in which encoding it is written: that of the output. -/
def outputEncoding : String := "utf-8"

/-- Replace the encodings in the content of a page's header; one is named after `charset=`, which
stands at the start of a line or behind a blank or a semicolon. -/
def replaceEncodings (opens : Bool) : Nat → List Char → List Char
  | 0, cs => cs
  | _ + 1, [] => []
  | n + 1, c :: rest =>
    let mark := "charset=".toList
    if opens && mark.isPrefixOf (c :: rest) then
      mark ++ outputEncoding.toList
        ++ replaceEncodings false n (((c :: rest).drop mark.length).dropWhile (· != ';'))
    else c :: replaceEncodings (c = ';' || Text.isBlank c) n rest

/-- The attributes of a tag that names the encoding of the document, with that of the output. -/
def declareEncoding (attributes : Entries String String) : Entries String String :=
  if Entries.has attributes "charset" then Entries.insert attributes "charset" outputEncoding
  else
    match Entries.get? attributes "http-equiv", Entries.get? attributes "content" with
    | some h, some content =>
      if Text.lower h = "content-type" then
        let cs := content.toList
        Entries.insert attributes "content" (String.ofList (replaceEncodings true cs.length cs))
      else attributes
    | _, _ => attributes

/-- The tag for a start tag; of a repeated attribute the last value counts. -/
def Tag.ofStart (id : Nat) (name : String) (written : List (String × String)) : Tag :=
  let attributes := Entries.ofList written
  let attributes := if name = "meta" then declareEncoding attributes else attributes
  { id, name, isVoid := voidNames.contains name,
    attributes := attributes.map fun a =>
      (a.1, if holdsWords name a.1 then .words (Text.words a.2) else .text a.2) }

/-- An open element with the children it has so far, latest first. -/
structure Open where
  tag : Tag
  children : List Node

/-- A document that is being read: the open elements, innermost first, the pieces of the current
text, latest first, the names of void elements whose end tags are still to come, and the next
number. -/
structure Reading where
  innermost : Open
  outer : List Open
  pieces : List Wide := []
  voids : List String := []
  nextId : Nat

namespace Reading

/-- Before the first token. -/
def start : Reading := ⟨⟨Document.empty.root.tag, []⟩, [], [], [], Document.empty.nextId⟩

/-- The names of the open elements, innermost first. -/
def openNames (r : Reading) : List String := (r.innermost :: r.outer).map (·.tag.name)

/-- The kind of a text that stands here. -/
def textKind (r : Reading) : TextKind := (r.openNames.findSome? textKindInside?).getD .plain

/-- A text as it is kept here. -/
def kept (r : Reading) (s : Wide) : Wide :=
  if s.all isSpacePoint && !r.openNames.any keepsBlanks then
    if s.contains (.char '\n') then "\n" else " "
  else s

/-- Add a child to the innermost element. -/
def add (r : Reading) (n : Node) : Reading :=
  { r with innermost := { r.innermost with children := n :: r.innermost.children } }

/-- End the current text, which has the given kind. -/
def endText (r : Reading) (kind : TextKind) : Reading :=
  if r.pieces.isEmpty then r
  else
    { r with pieces := [] }.add (.text kind (r.kept r.pieces.reverse.flatten))

/-- End the current text as an ordinary one. -/
def flush (r : Reading) : Reading := r.endText r.textKind

/-- Close the innermost element. -/
def closeOne (r : Reading) : Reading :=
  match r.outer with
  | [] => r
  | o :: outer =>
    { r with innermost := o, outer }.add (.element r.innermost.tag r.innermost.children.reverse)

/-- Close the given number of elements. -/
def close : Nat → Reading → Reading
  | 0, r => r
  | n + 1, r => close n r.closeOne

/-- Close everything up to the nearest open element with the name. -/
def closeTo (r : Reading) (name : String) : Reading :=
  match (r.openNames.take r.outer.length).idxOf? name with
  | some i => r.close (i + 1)
  | none => r

/-- An end tag. -/
def endTag (r : Reading) (name : String) : Reading :=
  if r.voids.contains name then { r with voids := r.voids.erase name } else r.flush.closeTo name

/-- A start tag. -/
def startTag (r : Reading) (name : String) (attributes : List (String × String)) : Reading :=
  let r := r.flush
  { r with
    innermost := ⟨.ofStart r.nextId name attributes, []⟩
    outer := r.innermost :: r.outer
    nextId := r.nextId + 1 }

/-- Read a token. -/
def step (r : Reading) : Token → Reading
  | .startTag name attributes selfClosing =>
    let r := r.startTag name attributes
    if selfClosing then r.endTag name
    else if voidNames.contains name then
      let r := r.closeTo name
      { r with voids := r.voids ++ [name] }
    else r
  | .endTag name => r.endTag name
  | .text s => { r with pieces := s :: r.pieces }
  | .special kind s => { r.flush with pieces := [s] }.endText kind

/-- The document when all tokens are read. -/
def finish (r : Reading) : Document :=
  let r := r.flush
  let r := r.close r.outer.length
  ⟨⟨r.innermost.tag, r.innermost.children.reverse⟩, r.nextId⟩

end Reading

/-- Read a document. -/
def Document.ofText (s : String) : Except Trace Document := do
  let tokens ← Token.ofText s
  pure (tokens.foldl Reading.step .start).finish

end CodeHighlight.Html
