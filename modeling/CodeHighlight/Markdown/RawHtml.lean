import CodeHighlight.Html.Token
import CodeHighlight.Markdown.Writer

/-!
# Raw HTML

HTML that stands in a document as a block: from a tag of a block element at the start of a line to
the end tag that closes it, with all that lies between. It becomes finished HTML between empty
lines. Tags anywhere else stay in the text.
-/

namespace CodeHighlight.Markdown

/-- A reader of raw HTML: the texts that have been read, latest first, the HTML under way, the
elements that are open in it, innermost first, whether HTML is under way or text follows its end on
the same line, and the place in the line. -/
structure RawReader where
  texts : List (List Atom) := []
  cache : List Atom := []
  stack : List String := []
  inRaw : Bool := false
  inTail : Bool := false
  column : Nat := 0
  onlyBlanks : Bool := true

namespace RawReader

/-- The place is at the start of a line, behind three blanks at most. -/
def atLineStart (r : RawReader) : Bool := r.column = 0 || (r.column ≤ 3 && r.onlyBlanks)

/-- Move the place behind some atoms. -/
def move (r : RawReader) (atoms : List Atom) : RawReader :=
  match Atom.lines atoms with
  | [] | [_] =>
    { r with
      column := r.column + atoms.length
      onlyBlanks := r.onlyBlanks && atoms.all Atom.isBlank }
  | lines =>
    let line := lines.getLast?.getD []
    { r with column := line.length, onlyBlanks := line.all Atom.isBlank }

/-- Add a text. -/
def add (r : RawReader) (atoms : List Atom) : RawReader := { r with texts := atoms :: r.texts }

/-- Add text that is no tag. -/
def addData (r : RawReader) (atoms : List Atom) : RawReader :=
  let r := if atoms.any (Atom.isChar '\n') then { r with inTail := false } else r
  if r.inRaw then { r with cache := r.cache ++ atoms } else r.add atoms

/-- The HTML under way as a finished block. -/
def finish (r : RawReader) : RawReader :=
  { (r.add [.html (Atom.textOf r.cache)]) with cache := [], inRaw := false }

/-- Two line feeds with nothing but spaces before each. -/
def startsEmptyLine (atoms : List Atom) : Bool :=
  match Atom.lines atoms with
  | first :: second :: _ :: _ => Atom.isSpaces first && Atom.isSpaces second
  | _ => false

/-- Two line feeds. -/
def emptyLine : List Atom := [Atom.lineFeed, Atom.lineFeed]

/-- A start tag. -/
def startTag (r : RawReader) (name : String) (tag : List Atom) : RawReader :=
  let r := if Atom.isBlockTag name && (r.inTail || r.atLineStart) then
      { (r.add [Atom.lineFeed]) with inRaw := true }
    else r
  if r.inRaw then { r with stack := name :: r.stack, cache := r.cache ++ tag } else r.add tag

/-- The elements that stay open when one is closed. -/
def close (name : String) (stack : List String) : List String :=
  if stack.contains name then (stack.dropWhile (· != name)).drop 1 else stack

/-- An end tag, given what follows it. -/
def endTag (r : RawReader) (name : String) (tag rest : List Atom) : RawReader :=
  if r.inRaw then
    let stack := close name r.stack
    let r := { r with stack, cache := r.cache ++ tag }
    if stack.isEmpty then
      let r := if startsEmptyLine rest then { r with cache := r.cache ++ [Atom.lineFeed] }
        else { r with inTail := true }
      r.finish.add emptyLine
    else r
  else r.add tag

/-- The text read last ends with exactly one line feed. -/
def endsWithLineFeed (r : RawReader) : Bool :=
  match r.texts with
  | text :: _ =>
    match text.reverse with
    | a :: b :: _ => a.isChar '\n' && !b.isChar '\n'
    | [a] => a.isChar '\n'
    | [] => false
  | [] => false

/-- A tag without content or a comment, given what follows it. -/
def emptyTag (r : RawReader) (isBlock : Bool) (tag rest : List Atom) : RawReader :=
  if r.inRaw || r.inTail then { r with cache := r.cache ++ tag }
  else if r.atLineStart && isBlock then
    let isAlone := startsEmptyLine rest
    let r := if r.endsWithLineFeed then r.add [Atom.lineFeed] else r
    let tag := if isAlone then tag ++ [Atom.lineFeed] else tag
    { ((r.add [.html (Atom.textOf tag)]).add emptyLine) with inTail := !isAlone }
  else r.add tag

/-- The elements that never have content. -/
def isAlwaysEmpty (name : String) : Bool := name = "hr"

/-- What stands at a mark that may start a tag: how many atoms it takes, and what it is. -/
inductive Tagged where
  | data (size : Nat)
  | start (size : Nat) (name : String)
  | empty (size : Nat) (isBlock : Bool)
  | stop (size : Nat) (name : String)

/-- The size of what was read, the mark included. -/
def sizeOf (cs rest : List Char) : Nat := 1 + (cs.length - rest.length)

/-- A declaration, a comment or an instruction, which is one at the start of a line only. -/
def readSpecial (r : RawReader) (cs : List Char) : Tagged :=
  if r.atLineStart || r.inTail then
    match cs with
    | '?' :: _ =>
      match Html.Token.findMarks ['?', '>'] [] cs with
      | some (_, rest) => .empty (sizeOf cs rest) true
      | none => .data 1
    | cs =>
      match Html.Token.readMarkup cs with
      | .ok (some (_, rest)) => .empty (sizeOf cs rest) true
      | _ => .data 1
  else .data 2

/-- What a text that follows the mark reads as. -/
def readTag (r : RawReader) (cs : List Char) : Tagged :=
  match cs with
  | '/' :: c :: _ =>
    if Html.Token.isLetter c then
      match Html.Token.readEndTag (cs.drop 1) with
      | some ([.endTag name], rest) => .stop (sizeOf cs rest) name
      | _ => .data 1
    else .data 1
  | '!' :: '-' :: '-' :: inner =>
    match Html.Token.readComment [] inner with
    | some (_, rest) => .empty (sizeOf cs rest) true
    | none => .data 1
  | '!' :: _ | '?' :: _ => readSpecial r cs
  | c :: _ =>
    if Html.Token.isLetter c then
      match Html.Token.readStartTag cs with
      | some (.startTag name _ selfClosing, rest) =>
        let size := sizeOf cs rest
        if selfClosing then .empty size (Atom.isBlockTag name)
        else if isAlwaysEmpty name then .empty size true
        else .start size name
      | some (_, rest) => .data (sizeOf cs rest)
      | none => .data 1
    else .data 1
  | [] => .data 1

/-- The reference at an ampersand: its size, when it ends with a semicolon. -/
def referenceSize? (cs : List Char) : Option Nat :=
  let name := match cs with
    | '#' :: 'x' :: rest | '#' :: 'X' :: rest => 2 + (rest.takeWhile Text.isHexDigit).length
    | '#' :: rest => 1 + (rest.takeWhile Char.isDigit).length
    | cs => (cs.takeWhile Html.Token.isReferenceChar).length
  if Atom.isReference cs && (cs.drop name).head? == some ';' then some (name + 2) else none

/-- Read atoms, in at most the given number of steps. -/
def read : Nat → RawReader → List Atom → RawReader
  | 0, r, atoms => r.addData atoms
  | _ + 1, r, [] => r
  | n + 1, r, a :: rest =>
    let go (r : RawReader) (size : Nat) : RawReader :=
      read n (r.move ((a :: rest).take size)) ((a :: rest).drop size)
    if a.isChar '<' then
      match readTag r (Atom.shadow rest) with
      | .data size => go (r.addData ((a :: rest).take size)) size
      | .empty size isBlock =>
        go (r.emptyTag isBlock ((a :: rest).take size) ((a :: rest).drop size)) size
      | .stop size name => go (r.endTag name ((a :: rest).take size) ((a :: rest).drop size)) size
      | .start size name =>
        let next := r.startTag name ((a :: rest).take size)
        if next.inRaw && Html.Token.isRawElement name then
          let after := (a :: rest).drop size
          let inner := match Html.Token.rawText name [] (Atom.shadow after) with
            | some (before, _) => before.length
            | none => after.length
          go (next.addData (after.take inner)) (size + inner)
        else go next size
    else if a.isChar '&' then
      match referenceSize? (Atom.shadow rest) with
      | some size => go (r.emptyTag false ((a :: rest).take size) ((a :: rest).drop size)) size
      | none => go (r.addData [a]) 1
    else
      let data := a :: rest.takeWhile fun b => !(b.isChar '<' || b.isChar '&')
      go (r.addData data) data.length

/-- All that has been read; HTML that is still under way is finished. -/
def result (r : RawReader) : List Atom :=
  let r := if r.cache.isEmpty then r else r.finish
  r.texts.reverse.flatten

end RawReader

/-- Replace raw HTML in a text by finished HTML. -/
def replaceRawHtml (atoms : List Atom) : List Atom :=
  (RawReader.read (atoms.length + 1) {} atoms).result

end CodeHighlight.Markdown
