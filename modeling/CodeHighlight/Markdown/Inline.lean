import CodeHighlight.Markdown.Emphasis
import CodeHighlight.Markdown.Link

/-!
# Inline markup

The markup inside the text of a block. Each kind of markup in turn is looked for in the whole text:
what is found becomes one atom, which the kinds after it do not look into. The text of an element
that was found is read for the kinds after its own.
-/

namespace CodeHighlight.Markdown

/-- The kinds of inline markup, in the order in which they are looked for. -/
inductive InlineKind where
  | code
  | escape
  | reference
  | link
  | image
  | imageReference
  | shortReference
  | shortImageReference
  | autolink
  | mailLink
  | hardBreak
  | tag
  | entity
  | loneMarks
  | asterisks
  | underscores
  | lineBreak
  deriving DecidableEq, Repr

/-- What inline markup depends on: the targets of links, the characters that a backslash keeps, and
whether every line feed is a line break. -/
structure InlineRules where
  targets : Entries String Target := []
  escapes : List Char := []
  breaks : Bool := false

/-- What a kind reads at a place: atoms and the rest; nothing to keep, and where to go on; or
nothing. -/
inductive Reading where
  | found (atoms rest : List Atom)
  | skip (size : Nat)
  | nothing

namespace Inline

/-- The kinds in order. -/
def kinds (rules : InlineRules) : List InlineKind :=
  [.code, .escape, .reference, .link, .image, .imageReference, .shortReference,
    .shortImageReference, .autolink, .mailLink, .hardBreak, .tag, .entity, .loneMarks, .asterisks,
    .underscores] ++ (if rules.breaks then [.lineBreak] else [])

/-- The characters that a backslash keeps from being markup. -/
def plainEscapes : List Char :=
  ['\\', '\x60', '*', '_', '\x7b', '\x7d', '[', ']', '(', ')', '>', '#', '+', '-', '.', '!']

/-- An optional reading. -/
def ofOption (r : Option (List Atom × List Atom)) : Reading :=
  match r with
  | some (atoms, rest) => .found atoms rest
  | none => .nothing

/-- The character stands right before a place. -/
def follows (c : Char) (before : List Atom) : Bool := before.head?.any (Atom.isChar c)

/-- So many backticks that close code, the text before them, and the rest. -/
def codeEnd (ticks : Nat) : List Atom → List Atom → Option (List Atom × List Atom)
  | _, [] => none
  | before, a :: rest =>
    let atoms := a :: rest
    let run := (atoms.takeWhile (Atom.isChar '\x60')).length
    if !before.isEmpty && !follows '\x60' before && run = ticks then
      some (before.reverse, atoms.drop ticks)
    else codeEnd ticks (a :: before) rest

/-- Code between at most so many backticks, the most that read counting. -/
def codeWith (atoms : List Atom) : Nat → Option (List Atom × List Atom)
  | 0 => none
  | n + 1 =>
    match codeEnd (n + 1) [] (atoms.drop (n + 1)) with
    | some (inner, rest) =>
      some ([.element "code" [] ((Atom.strip inner).map Atom.settle)], rest)
    | none => codeWith atoms n

/-- Code, or pairs of backslashes before a backtick, of which one each is kept. -/
def readCode (before atoms : List Atom) : Reading :=
  let slashes := (atoms.takeWhile (Atom.isChar '\\')).length
  if follows '\\' before then .nothing
  else if 0 < slashes then
    let rest := atoms.drop slashes
    if slashes % 2 = 0 && rest.head?.any (Atom.isChar '\x60') then
      .found (List.replicate (slashes / 2) (.settled '\\')) rest
    else .nothing
  else ofOption (codeWith atoms (atoms.takeWhile (Atom.isChar '\x60')).length)

/-- A character that a backslash keeps. -/
def readEscape (rules : InlineRules) : List Atom → Reading
  | a :: b :: rest =>
    if a.isChar '\\' then
      match b.char? with
      | some c => if rules.escapes.contains c then .found [.settled c] rest else .skip 2
      | none => .skip 2
    else .nothing
  | _ => .nothing

/-- A title as an attribute. -/
def titleAttribute (title : Option String) : List (String × String) :=
  match title with
  | some t => [("title", t)]
  | none => []

/-- The link to a target. -/
def linkTo (t : Target) (text : List Atom) : Atom :=
  .element "a" (("href", t.address) :: titleAttribute t.title) text

/-- The image at a target. -/
def imageAt (t : Target) (text : List Atom) : Atom :=
  .element "img" (("src", t.address) :: ("alt", Atom.textOf text) :: titleAttribute t.title) []

/-- A target without an empty title. -/
def withoutEmptyTitle (t : Target) : Target :=
  { t with title := t.title.bind fun s => if s.isEmpty then none else some s }

/-- The opening of a link or an image: its mark, which must not follow an exclamation mark when it
is one of a link, and what follows. -/
def opening? (image : Bool) (before atoms : List Atom) : Option (List Atom) :=
  match atoms with
  | a :: rest =>
    if image then
      if a.isChar '!' && rest.head?.any (Atom.isChar '[') then some (rest.drop 1) else none
    else if a.isChar '[' && !follows '!' before then some rest
    else none
  | [] => none

/-- A link or an image with an address. -/
def readLink (image : Bool) (before atoms : List Atom) : Reading :=
  ofOption do
    let inner ← opening? image before atoms
    let (text, rest) ← Link.text? inner
    let (target, rest) ← Link.target? rest
    pure ([if image then imageAt target text else linkTo target text], rest)

/-- A link or an image with the name of a target, which the text is itself in the short form. A name
that is not defined is passed over. -/
def readReference (rules : InlineRules) (image short : Bool) (before atoms : List Atom) : Reading :=
  let parts : Option (List Atom × List Atom × List Atom) := do
    let inner ← opening? image before atoms
    let (text, rest) ← Link.text? inner
    let (name, rest) ← if short then some (text, rest) else Link.name? text rest
    pure (text, name, rest)
  match parts with
  | none => .nothing
  | some (text, name, rest) =>
    match (Link.keyIn name).bind (Entries.get? rules.targets) with
    | some t =>
      let t := withoutEmptyTitle t
      .found [if image then imageAt t text else linkTo t text] rest
    | none => .skip (atoms.length - rest.length)

/-- Text between angle brackets that a test accepts, and the rest. -/
def angled? (accepts : List Atom → Bool) (atoms : List Atom) : Option (List Atom × List Atom) :=
  match atoms with
  | a :: rest =>
    let inner := rest.takeWhile fun b => !(b.isChar '<' || b.isChar '>')
    match rest.drop inner.length with
    | b :: after =>
      if a.isChar '<' && b.isChar '>' && accepts inner then some (inner, after) else none
    | [] => none
  | [] => none

/-- The ways an address starts that is a link by itself, in lower case. -/
def schemes : List (List Char) := ["http://", "https://", "ftp://", "ftps://"].map String.toList

/-- An address that is a link by itself. -/
def isAddress (atoms : List Atom) : Bool :=
  let cs := (Atom.shadow (atoms.take 8)).map Char.toLower
  schemes.any fun s => s.isPrefixOf cs

/-- An address that is a link by itself, between angle brackets. -/
def readAutolink (atoms : List Atom) : Reading :=
  ofOption ((angled? isAddress atoms).map fun (inner, rest) =>
    ([.element "a" [("href", Atom.textOf inner)] (inner.map Atom.settle)], rest))

/-- An address of mail: a sign with text on both sides, and neither spaces nor exclamation marks
before it. -/
def isMail (atoms : List Atom) : Bool :=
  let host := (atoms.reverse.takeWhile fun a => !a.isChar '@').reverse
  let name := atoms.take (atoms.length - host.length - 1)
  !name.isEmpty && !host.isEmpty && name.all (fun a => !(a.isChar ' ' || a.isChar '!'))
    && host.all fun a => !a.isChar ' '

/-- A character as a numbered reference. -/
def numbered (c : Char) : String := "&#" ++ toString c.toNat ++ ";"

/-- The text without a lead, if it has it. -/
def withoutLead (lead s : String) : String :=
  if s.startsWith lead then String.ofList (s.toList.drop lead.length) else s

/-- An address of mail that is a link by itself, written in references. -/
def readMail (atoms : List Atom) : Reading :=
  ofOption ((angled? isMail atoms).map fun (inner, rest) =>
    let mail := withoutLead "mailto:" (Atom.textOf inner)
    let text (s : String) := String.join (s.toList.map numbered)
    ([.element "a" [("href", text ("mailto:" ++ mail))] [.html (text mail)]], rest))

/-- An atom as it was written, with the backslash of a kept character. -/
def unread (a : Atom) : String :=
  match a with
  | .char c => String.singleton c
  | .settled c => String.ofList ['\\', c]
  | a => Atom.write [] a

/-- A tag, without its angle brackets: a name, and nothing or more behind a space. -/
def isTag (atoms : List Atom) : Bool :=
  let atoms := if atoms.head?.any (Atom.isChar '/') then atoms.drop 1 else atoms
  let name := atoms.takeWhile fun a => !a.isChar ' '
  (name.head?.bind Atom.char?).any Char.isAlpha && !name.any (Atom.isChar '@')

/-- Text between two marks in which neither of them stands, given the atoms behind the first. -/
def enclosed? (open_ close : List Char) (before : List Atom) :
    List Atom → Option (List Atom × List Atom)
  | [] => none
  | a :: rest =>
    if Atom.startsWith close (a :: rest) then
      some (before.reverse, (a :: rest).drop close.length)
    else if Atom.startsWith open_ (a :: rest) then none
    else enclosed? open_ close (a :: before) rest

/-- The marks around comments, instructions and marked sections. -/
def enclosures : List (List Char × List Char) :=
  [("<!--", "-->"), ("<?", "?>"), ("<![CDATA[", "]]>")].map fun e => (e.1.toList, e.2.toList)

/-- HTML inside a text: a tag, a comment, an instruction or a marked section. -/
def readTag (atoms : List Atom) : Reading :=
  let special := enclosures.findSome? fun (start, stop) =>
    if Atom.startsWith start atoms then
      (enclosed? start stop [] (atoms.drop start.length)).map Prod.snd
    else none
  match ((angled? isTag atoms).map Prod.snd).or special with
  | some rest =>
    let taken := atoms.take (atoms.length - rest.length)
    .found [.html (String.join (taken.map unread))] rest
  | none => .nothing

/-- A reference to a character. -/
def readEntity (atoms : List Atom) : Reading :=
  match atoms with
  | a :: rest =>
    let cs := Atom.shadow rest
    let isNumber := match cs with
      | '#' :: 'X' :: _ => false
      | _ => true
    if a.isChar '&' && isNumber && Atom.isReference cs then
      let name := cs.takeWhile (· != ';')
      .found [.html (String.ofList ('&' :: name ++ [';']))] (rest.drop (name.length + 1))
    else .nothing
  | [] => .nothing

/-- Up to three marks of emphasis with blanks around. -/
def readLoneMarks (before atoms : List Atom) : Reading :=
  let isFree := before.isEmpty || before.head?.any Atom.isBlank
  let run (c : Char) := atoms.takeWhile (Atom.isChar c)
  let marks := if (run '*').isEmpty then run '_' else run '*'
  let rest := atoms.drop marks.length
  if isFree && 0 < marks.length && marks.length ≤ 3 && (rest.isEmpty || rest.head?.any Atom.isBlank)
  then .found (marks.map Atom.settle) rest
  else .nothing

/-- What a kind reads at a place, given the atoms before it, latest first. -/
def readAt (rules : InlineRules) (kind : InlineKind) (before atoms : List Atom) : Reading :=
  match kind with
  | .code => readCode before atoms
  | .escape => readEscape rules atoms
  | .reference => readReference rules false false before atoms
  | .link => readLink false before atoms
  | .image => readLink true before atoms
  | .imageReference => readReference rules true false before atoms
  | .shortReference => readReference rules false true before atoms
  | .shortImageReference => readReference rules true true before atoms
  | .autolink => readAutolink atoms
  | .mailLink => readMail atoms
  | .hardBreak =>
    if Atom.startsWith [' ', ' ', '\n'] atoms then .found [.element "br" [] []] (atoms.drop 3)
    else .nothing
  | .tag => if atoms.head?.any (Atom.isChar '<') then readTag atoms else .nothing
  | .entity => readEntity atoms
  | .loneMarks => readLoneMarks before atoms
  | .asterisks =>
    if atoms.head?.any (Atom.isChar '*') then
      ofOption ((Emphasis.read? '*' before.head? atoms).map fun (e, rest) => ([e], rest))
    else .nothing
  | .underscores =>
    if atoms.head?.any (Atom.isChar '_') then
      ofOption ((Emphasis.read? '_' before.head? atoms).map fun (e, rest) => ([e], rest))
    else .nothing
  | .lineBreak =>
    if Atom.startsWith ['\n'] atoms then .found [.element "br" [] []] (atoms.drop 1) else .nothing

/-- The first place where a kind reads something, in at most the given number of steps: the atoms
before it, latest first, what is read, and the rest. -/
def search (rules : InlineRules) (kind : InlineKind) :
    Nat → List Atom → List Atom → Option (List Atom × List Atom × List Atom)
  | 0, _, _ => none
  | _ + 1, _, [] => none
  | n + 1, before, a :: rest =>
    match readAt rules kind before (a :: rest) with
    | .found atoms after => some (before, atoms, after)
    | .skip size =>
      let taken := (a :: rest).take size
      search rules kind n (taken.reverse ++ before) ((a :: rest).drop size)
    | .nothing => search rules kind n (a :: before) rest

mutual

/-- Read the texts inside an element: those at the start with `text`, those behind elements with
`tail`. -/
def within (text tail : List Atom → List Atom) : Atom → Atom
  | .element tag attributes content =>
    let lead := Atom.leading content
    .element tag attributes
      ((if lead.isEmpty then [] else text lead) ++ withinAll text tail content)
  | a => a

/-- Read the texts inside elements and behind them; other atoms are left out. -/
def withinAll (text tail : List Atom → List Atom) : List Atom → List Atom
  | [] => []
  | a :: rest =>
    if a.isElement then
      let lead := Atom.leading rest
      within text tail a :: (if lead.isEmpty then [] else tail lead) ++ withinAll text tail rest
    else withinAll text tail rest

end

/-- Replace what a kind reads, each time from the start of the text, in at most the given number of
steps; `finish` is applied to what is read. -/
def replaceAll (rules : InlineRules) (kind : InlineKind) (finish : Atom → Atom) :
    Nat → List Atom → List Atom
  | 0, atoms => atoms
  | n + 1, atoms =>
    match search rules kind (atoms.length + 1) [] atoms with
    | some (before, found, rest) =>
      replaceAll rules kind finish n (before.reverse ++ found.map finish ++ rest)
    | none => atoms

/-- Read a text for kinds, in at most the given number of steps. -/
def read (rules : InlineRules) : Nat → List InlineKind → List Atom → List Atom
  | 0, _, atoms => atoms
  | _ + 1, [], atoms => atoms
  | n + 1, kind :: others, atoms =>
    let finish := within (read rules n others) (read rules n (kind :: others))
    read rules n others (replaceAll rules kind finish (atoms.length + 1) atoms)

/-- Read a text for all kinds. -/
def readText (rules : InlineRules) (atoms : List Atom) : List Atom :=
  let kinds := kinds rules
  read rules ((kinds.length + 1) * (atoms.length + 2)) kinds atoms

/-- Read all texts in a document. -/
def readDocument (rules : InlineRules) (blocks : List Atom) : List Atom :=
  (within (readText rules) (readText rules) (.element "div" [] blocks)).content

end Inline

end CodeHighlight.Markdown
