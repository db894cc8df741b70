import CodeHighlight.Markdown.Definitions
import CodeHighlight.Markdown.Lines

/-!
# Block structure

The blocks of a document: headings, rules, lists, quotations, code and paragraphs. A text is cut
into pieces at empty lines, and each piece is given to the first kind of block that takes it. A
block can give back the lines it does not take as a new piece. Lists, items and quotations hold
pieces in turn, and an indented piece goes into the item it is indented for.

What a piece becomes depends on the innermost state that is set: inside a list without empty lines
between its items, a paragraph is the bare text of its item.
-/

namespace CodeHighlight.Markdown

/-- What the pieces that are read are part of. -/
inductive BlockState where
  | plain
  | detabbed
  | list
  | looseList
  | quotation
  deriving DecidableEq, Repr

/-- Which rules apply to the blocks of a document. -/
structure BlockRules where
  abbreviations : Bool := false
  strictLists : Bool := false

/-- Reading blocks collects definitions. -/
abbrev Collect := StateM Definitions

namespace Blocks

/-- A list. -/
def isList (tag : String) : Bool := tag = "ul" || tag = "ol"

/-- Spaces of one indentation. -/
def tabSpaces : List Char := List.replicate tabWidth ' '

/-- Indented code is the last block. -/
def lastCode? (content : List Atom) : Option (List Atom) :=
  match Atom.last? content with
  | some (.element "pre" _ inner) =>
    match (Atom.fromElement inner).head? with
    | some (.element "code" _ code) => some code
    | _ => none
  | _ => none

/-- Indented code with its text. -/
def codeBlock (code : List Atom) : Atom := .element "pre" [] [.element "code" [] code]

/-- Add empty lines to indented code. -/
def addFiller (content : List Atom) (feeds : Nat) : List Atom :=
  match lastCode? content with
  | some code =>
    Atom.setLast content (codeBlock (code ++ List.replicate feeds (Atom.settle Atom.lineFeed)))
  | none => content

/-- The lines at the start that are indented or blank, without the indentation, and the others. -/
def detab : List (List Atom) → List (List Atom) × List (List Atom)
  | [] => ([], [])
  | line :: rest =>
    if Atom.startsWith tabSpaces line then
      let (inner, others) := detab rest
      (line.drop tabWidth :: inner, others)
    else if line.all Atom.isBlank then
      let (inner, others) := detab rest
      ([] :: inner, others)
    else ([], line :: rest)

/-- The lines with so many indentations less; those that are indented less stay. -/
def looseDetab (level : Nat) (block : List Atom) : List Atom :=
  let width := tabWidth * level
  Atom.unlines ((Atom.lines block).map fun line =>
    if width ≤ Atom.indent line then line.drop width else line)

/-- Lines that are joined unless there are none. -/
def piece (lines : List (List Atom)) : List (List Atom) :=
  let text := Atom.unlines lines
  if text.isEmpty then [] else [text]

/-- Indented code at the start of a block: the content with it, and the rest of the block. -/
def takeCode (content : List Atom) (block : List Atom) : List Atom × List (List Atom) :=
  let (inner, others) := detab (Atom.lines block)
  let code := (Atom.stripEnd (Atom.unlines inner)).map Atom.settle
  let feed := [Atom.settle Atom.lineFeed]
  (match lastCode? content with
    | some before => Atom.setLast content (codeBlock (before ++ feed ++ code ++ feed))
    | none => content ++ [codeBlock (code ++ feed)],
    piece others)

/-- The most levels of headings. -/
def headingLevels : Nat := 6

/-- The text of a heading and the rest behind its line: number signs at its end do not count, and a
backslash keeps what follows it, which must not be the end of the line. -/
def headingText (before : List Atom) : List Atom → Option (List Atom × List Atom)
  | [] => some (before.reverse, [])
  | a :: rest =>
    let behind := (a :: rest).dropWhile (Atom.isChar '#')
    match behind with
    | [] => some (before.reverse, [])
    | b :: after =>
      if b.isChar '\n' then some (before.reverse, after)
      else if a.isChar '\\' then
        match rest with
        | c :: more => if c.isChar '\n' then none else headingText (c :: a :: before) more
        | [] => none
      else headingText (a :: before) rest

/-- A heading at the start of a text: its level, its text and the rest. -/
def heading? (atoms : List Atom) : Option (Nat × List Atom × List Atom) :=
  let marks := min headingLevels (atoms.takeWhile (Atom.isChar '#')).length
  if marks = 0 then none
  else (headingText [] (atoms.drop marks)).map fun (text, rest) => (marks, Atom.strip text, rest)

/-- The first heading of a block: the lines before it, the heading, and the rest. -/
def findHeading (before : List (List Atom)) :
    List (List Atom) → Option (List (List Atom) × (Nat × List Atom) × List Atom)
  | [] => none
  | line :: rest =>
    match heading? (Atom.unlines (line :: rest)) with
    | some (level, text, after) => some (before, (level, text), after)
    | none => findHeading (before ++ [line]) rest

/-- The element of a heading. -/
def headingElement (level : Nat) (text : List Atom) : Atom :=
  .element ("h" ++ toString level) [] text

/-- A line of equals signs and hyphens, and spaces at its end. -/
def isUnderline (line : List Atom) : Bool :=
  let isMark := fun (a : Atom) => a.isChar '=' || a.isChar '-'
  line.head?.any isMark && Atom.isSpaces (line.dropWhile isMark)

/-- A block whose second line underlines the first: the heading and the lines after it. -/
def underlined? (block : List Atom) : Option (Atom × List (List Atom)) :=
  match Atom.lines block with
  | first :: second :: rest =>
    if isUnderline second then
      let level := if second.head?.any (Atom.isChar '=') then 1 else 2
      some (headingElement level (Atom.strip first),
        if rest.isEmpty then [] else [Atom.unlines rest])
    else none
  | _ => none

/-- The marks of a rule: the same mark all along, with at most two spaces between marks. -/
def ruleMarks (mark : Char) (gap count : Nat) : List Atom → Bool
  | [] => 3 ≤ count
  | a :: rest =>
    if a.isChar mark then ruleMarks mark 0 (count + 1) rest
    else if a.isChar ' ' then
      if gap < 2 then ruleMarks mark (gap + 1) count rest else 3 ≤ count && Atom.isSpaces rest
    else false

/-- A line that is a rule. -/
def isRule (line : List Atom) : Bool :=
  let rest := Atom.dropSpaces line
  Atom.indent line ≤ 3
    && ['-', '_', '*'].any fun mark => rest.head?.any (Atom.isChar mark) && ruleMarks mark 0 0 rest

/-- The marks of the items of a list. -/
inductive ItemMark where
  | number
  | bullet
  deriving DecidableEq, Repr

/-- An item at the start of a line behind its indentation: its mark and its text. -/
def itemAt? (line : List Atom) : Option (ItemMark × List Atom) :=
  let isDigit := fun (a : Atom) => a.char?.any Text.isDecimalDigit
  let digits := line.takeWhile isDigit
  let (mark, rest) := match digits, line.drop digits.length with
    | [], a :: rest =>
      if a.isChar '*' || a.isChar '+' || a.isChar '-' then (some ItemMark.bullet, rest)
      else (none, rest)
    | _ :: _, a :: rest => if a.isChar '.' then (some .number, rest) else (none, rest)
    | _, [] => (none, [])
  match mark with
  | some mark =>
    if rest.head?.any (Atom.isChar ' ') then some (mark, Atom.dropSpaces rest) else none
  | none => none

/-- An item that is not indented. -/
def item? (line : List Atom) : Option (ItemMark × List Atom) :=
  if Atom.indent line < tabWidth then itemAt? (Atom.dropSpaces line) else none

/-- A line that is an item indented once. -/
def isInnerItem (line : List Atom) : Bool :=
  let width := Atom.indent line
  tabWidth ≤ width && width < 2 * tabWidth && (itemAt? (Atom.dropSpaces line)).isSome

/-- Add a line to the last item. -/
def appendLine (items : List (List Atom)) (line : List Atom) : List (List Atom) :=
  match items.getLast? with
  | some last => items.dropLast ++ [last ++ Atom.lineFeed :: line]
  | none => [line]

/-- The items of a block. Lines that are indented items stay together as one item. -/
def itemsOf (accepts : ItemMark → Bool) (items : List (List Atom)) :
    List (List Atom) → List (List Atom)
  | [] => items
  | line :: rest =>
    let next := match item? line with
      | some (mark, text) =>
        if accepts mark then items ++ [text] else appendLine items line
      | none =>
        if isInnerItem line && !items.getLast?.any (Atom.startsWith tabSpaces) then items ++ [line]
        else appendLine items line
    itemsOf accepts next rest

/-- Put the bare text of an item into a paragraph. -/
def wrapText (item : Atom) : Atom :=
  let lead := Atom.leading item.content
  if lead.isEmpty then item
  else item.withContent (.element "p" [] lead :: Atom.fromElement item.content)

/-- Put the text behind the last block of an item into a paragraph. -/
def wrapTail (item : Atom) : Atom :=
  let tail := Atom.trailing item.content
  if (Atom.last? item.content).isNone || tail.isEmpty then item
  else item.withContent (Atom.upToElement item.content ++ [.element "p" [] (Atom.stripStart tail)])

/-- The last element with a change. -/
def changeLast (f : Atom → Atom) (content : List Atom) : List Atom :=
  match Atom.last? content with
  | some a => Atom.setLast content (f a)
  | none => content

/-- A line of a quotation and its text. -/
def quoted? (line : List Atom) : Option (List Atom) :=
  match Atom.dropSpaces line with
  | a :: rest =>
    if Atom.indent line ≤ 3 && a.isChar '>' then
      some (if rest.head?.any (Atom.isChar ' ') then rest.drop 1 else rest)
    else none
  | [] => none

/-- A line without the mark of a quotation. -/
def unquote (line : List Atom) : List Atom := (quoted? line).getD line

/-- The lines before a quotation and the text inside it. -/
def quotation? (block : List Atom) : Option (List Atom × List Atom) :=
  let lines := Atom.lines block
  let isPlain := fun (line : List Atom) => (quoted? line).isNone
  match lines.dropWhile isPlain with
  | [] => none
  | inner =>
    let before := lines.takeWhile isPlain
    let inner := inner.map unquote
    some (Atom.unlines before, Atom.unlines (if before.isEmpty then inner else [] :: inner))

/-- How deep an indented piece goes: the number of last elements to step into and the level of
lists, from a level and a number of indentations on. -/
def depth (indents : Nat) : Nat → Nat → List Atom → Nat × Nat
  | 0, level, _ => (0, level)
  | n + 1, level, content =>
    if indents ≤ level then (0, level)
    else
      match Atom.last? content with
      | some (.element tag _ inner) =>
        if isList tag || tag = "li" then
          let (steps, level) := depth indents n (if isList tag then level + 1 else level) inner
          (steps + 1, level)
        else (0, level)
      | _ => (0, level)

/-- Change what so many steps into last elements hold; the change is told the element's name. -/
def changeAt (f : String → List Atom → Collect (List Atom)) :
    Nat → String → List Atom → Collect (List Atom)
  | 0, tag, content => f tag content
  | n + 1, tag, content =>
    match Atom.last? content with
    | some (.element inner attributes items) => do
      let items ← changeAt f n inner items
      pure (Atom.setLast content (.element inner attributes items))
    | _ => f tag content

/-- An indented piece belongs to a list or an item before it. -/
def isListed (state : BlockState) (parent : String) (content block : List Atom) : Bool :=
  Atom.startsWith tabSpaces block && state != .detabbed
    && (parent = "li" || ((Atom.last? content).bind Atom.tag?).any isList)

/-- The name of a list with such items. -/
def listTag : ItemMark → String
  | .number => "ol"
  | .bullet => "ul"

/-- A list that goes on with items of another piece. -/
def continues (rules : BlockRules) (mark : ItemMark) (tag : String) : Bool :=
  if rules.strictLists then tag = listTag mark else isList tag

/-- A bare text at the end of an item, on a line of its own unless it is the first. -/
def addText (content text : List Atom) : List Atom :=
  match Atom.last? content with
  | some _ => content ++ Atom.lineFeed :: text
  | none =>
    if content.isEmpty then Atom.stripStart text
    else content ++ Atom.lineFeed :: Atom.stripStart text

/-- What a piece starts with: an empty line, an indentation that belongs to a list, indented code, a
heading, a heading with an underline, a rule, items, a quotation, or plain text. -/
inductive Opening where
  | emptyLine (feeds : Nat) (others : List (List Atom))
  | listed
  | code
  | heading (before : List (List Atom)) (level : Nat) (text after : List Atom)
  | underlined (heading : Atom) (others : List (List Atom))
  | rule (before after : List (List Atom))
  | items (mark : ItemMark)
  | quotation (before inner : List Atom)
  | plain

/-- The lines around the first rule. -/
def rule? (lines : List (List Atom)) : Option (List (List Atom) × List (List Atom)) :=
  match lines.dropWhile fun l => !isRule l with
  | [] => none
  | _ :: after => some (lines.takeWhile fun l => !isRule l, after)

/-- What a piece with text in its first line starts with, when it is not indented. -/
def openingOfText (block : List Atom) : Opening :=
  let lines := Atom.lines block
  match findHeading [] lines with
  | some (before, (level, text), after) => .heading before level text after
  | none =>
    match underlined? block with
    | some (heading, others) => .underlined heading others
    | none =>
      match rule? lines with
      | some (before, after) => .rule before after
      | none =>
        match item? (lines.head?.getD []) with
        | some (mark, _) => .items mark
        | none =>
          match quotation? block with
          | some (before, inner) => .quotation before inner
          | none => .plain

/-- What a piece starts with. -/
def openingOf (state : BlockState) (parent : String) (content : List Atom) :
    List Atom → Opening
  | [] => .emptyLine 2 []
  | a :: rest =>
    if a.isChar '\n' then .emptyLine 1 (if rest.isEmpty then [] else [rest])
    else if isListed state parent content (a :: rest) then .listed
    else if Atom.startsWith tabSpaces (a :: rest) then .code
    else openingOfText (a :: rest)

/-- Lines before something, as a piece without the line feeds at its end. -/
def leadOf (lines : List (List Atom)) : List (List Atom) :=
  let text := ((Atom.unlines lines).reverse.dropWhile (Atom.isChar '\n')).reverse
  if text.isEmpty then [] else [text]

/-- Lines after something, as a piece without the line feeds at its start. -/
def tailOf (lines : List (List Atom)) : List (List Atom) :=
  let text := (Atom.unlines lines).dropWhile (Atom.isChar '\n')
  if text.isEmpty then [] else [text]

/-- Reads pieces into what a parent of the given name holds, under a state. -/
abbrev Reading := BlockState → String → List Atom → List (List Atom) → Collect (List Atom)

/-- Read an indented piece into the item it belongs to. -/
def readListed (read : Reading) (state : BlockState) (parent : String) (content block : List Atom) :
    Collect (List Atom) :=
  let start := if state = .list then 1 else 0
  let (steps, level) := depth (Atom.indent block / tabWidth) block.length start content
  let block := looseDetab level block
  if parent = "li" then
    let steps := if ((Atom.last? content).bind Atom.tag?).any isList then 1 else 0
    changeAt (fun tag inner => read .detabbed tag inner [block]) steps parent content
  else changeAt (enter block) steps parent content
where
  /-- Read the piece into an item, into the last item of a list, or into a new item. -/
  enter (block : List Atom) (tag : String) (inner : List Atom) : Collect (List Atom) :=
    if tag = "li" then read .detabbed tag inner [block]
    else
      match Atom.last? inner with
      | some (.element "li" attributes items) => do
        let item := wrapText (.element "li" attributes items)
        let items ← read .detabbed "li" item.content (Atom.chunks block)
        pure (Atom.setLast inner (.element "li" attributes items))
      | _ => do
        let items ← read .detabbed "li" [] [block]
        pure (inner ++ [.element "li" [] items])

/-- Read an item into a list: an indented one into the last item, another one as an item. -/
def readItem (read : Reading) (list : String) (entries item : List Atom) : Collect (List Atom) := do
  if Atom.startsWith tabSpaces item then
    changeAt (fun tag inner => read .list tag inner [item]) 1 list entries
  else
    let inner ← read .list "li" [] [item]
    pure (entries ++ [.element "li" [] inner])

/-- Read items into a list that has items already; the last of these and the first of the new ones
hold paragraphs. -/
def readMoreItems (read : Reading) (list : String) (entries : List Atom)
    (items : List (List Atom)) : Collect (List Atom) := do
  let entries := changeLast (fun item => wrapTail (wrapText item)) entries
  let first ← read .looseList "li" [] (items.take 1)
  (items.drop 1).foldlM (readItem read list) (entries ++ [.element "li" [] first])

/-- Read the items of a piece: into the list before it, into the parent if that is a list, or into a
new list. -/
def readItems (read : Reading) (rules : BlockRules) (parent : String) (content block : List Atom)
    (mark : ItemMark) : Collect (List Atom) := do
  let items := itemsOf (fun m => !rules.strictLists || m = mark) [] (Atom.lines block)
  let asNew : Collect (List Atom) := do
    if isList parent then items.foldlM (readItem read parent) content
    else
      let entries ← items.foldlM (readItem read (listTag mark)) []
      pure (content ++ [.element (listTag mark) [] entries])
  match Atom.last? content with
  | some (.element tag attributes entries) =>
    if continues rules mark tag then do
      let entries ← readMoreItems read tag entries items
      pure (Atom.setLast content (.element tag attributes entries))
    else asNew
  | _ => asNew

/-- Read a quotation, which goes on from a quotation before it. -/
def readQuotation (read : Reading) (content inner : List Atom) : Collect (List Atom) := do
  match Atom.last? content with
  | some (.element "blockquote" attributes quoted) =>
    let quoted ← read .quotation "blockquote" quoted (Atom.chunks inner)
    pure (Atom.setLast content (.element "blockquote" attributes quoted))
  | _ =>
    let quoted ← read .quotation "blockquote" [] (Atom.chunks inner)
    pure (content ++ [.element "blockquote" [] quoted])

/-- Plain text as the last block of a parent: bare text in a list, or else a paragraph. -/
def addPlain (state : BlockState) (content block : List Atom) : List Atom :=
  if (Atom.strip block).isEmpty then content
  else if state = .list then addText content block
  else content ++ [.element "p" [] (Atom.stripStart block)]

/-- Read the first piece: the content with its block, and the pieces that are left of it. -/
def readPiece (read : Reading) (rules : BlockRules) (state : BlockState) (parent : String)
    (content block : List Atom) : Collect (List Atom × List (List Atom)) := do
  match openingOf state parent content block with
  | .emptyLine feeds others => pure (addFiller content feeds, others)
  | .listed => pure (← readListed read state parent content block, [])
  | .code => pure (takeCode content block)
  | .heading before level text after =>
    let content ← if before.isEmpty then pure content
      else read state parent content [Atom.unlines before]
    let after := if state = .looseList then looseDetab 1 after else after
    pure (content ++ [headingElement level text], if after.isEmpty then [] else [after])
  | .underlined heading others => pure (content ++ [heading], others)
  | .rule before after =>
    let content ← read state parent content (leadOf before)
    pure (content ++ [.element "hr" [] []], tailOf after)
  | .items mark => pure (← readItems read rules parent content block mark, [])
  | .quotation before inner =>
    let content ← read state parent content [before]
    pure (← readQuotation read content inner, [])
  | .plain =>
    match (← get).take? rules.abbreviations block with
    | some (definitions, others) =>
      set definitions
      pure (content, others)
    | none => pure (addPlain state content block, [])

/-- The blocks of pieces, added to what their parent holds, in at most the given number of steps. -/
def parse (rules : BlockRules) : Nat → Reading
  | 0, _, _, content, _ => pure content
  | _ + 1, _, _, content, [] => pure content
  | n + 1, state, parent, content, block :: rest => do
    let (content, others) ← readPiece (parse rules n) rules state parent content block
    parse rules n state parent content (others ++ rest)

/-- The blocks of a text, and its definitions. -/
def ofText (rules : BlockRules) (atoms : List Atom) : List Atom × Definitions :=
  (parse rules (4 * atoms.length + 16) .plain "div" [] (Atom.chunks atoms)).run {}

end Blocks

end CodeHighlight.Markdown
