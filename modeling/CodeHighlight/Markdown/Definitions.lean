import CodeHighlight.Data.Entries
import CodeHighlight.Markdown.Writer

/-!
# Definitions

What a document defines beside its text: the targets of links by name, and the titles of
abbreviations. A definition stands on a line of its own inside a block; its target or title can
stand on the next line.
-/

namespace CodeHighlight.Markdown

/-- A target with a title. -/
structure Target where
  address : String
  title : Option String
  deriving Inhabited

/-- The definitions of a document. -/
structure Definitions where
  targets : Entries String Target := []
  abbreviations : Entries String String := []

/-- A definition found in a block: what stands before it, and what stands after it. -/
structure Found (α : Type) where
  before : List Atom
  value : α
  after : List Atom

namespace Definitions

/-- A definition at the start of a text, and what follows it. -/
abbrev Recognizer (α : Type) := List Atom → Option (α × List Atom)

/-- The first line of a text at which something is recognized; `before` are the lines before. -/
def find {α : Type} (recognize : Recognizer α) (before : List (List Atom)) :
    List (List Atom) → Option (Found α)
  | [] => none
  | line :: rest =>
    match recognize (Atom.unlines (line :: rest)) with
    | some (value, after) =>
      let lead := if before.isEmpty then [] else Atom.unlines before ++ [Atom.lineFeed]
      some ⟨lead, value, after⟩
    | none => find recognize (before ++ [line]) rest

/-- Leave out spaces, at most one line feed, and spaces. -/
def skipToText (atoms : List Atom) : List Atom :=
  match Atom.dropSpaces atoms with
  | a :: rest => if a.isChar '\n' then Atom.dropSpaces rest else a :: rest
  | [] => []

/-- The rest of the line and what follows it. -/
def restOfLine (atoms : List Atom) : List Atom × List Atom :=
  (atoms.takeWhile fun a => !a.isChar '\n', atoms.dropWhile fun a => !a.isChar '\n')

/-- The end of a line. -/
def isLineEnd (atoms : List Atom) : Bool :=
  match atoms with
  | [] => true
  | a :: _ => a.isChar '\n'

/-- The mark between an abbreviation and its title, and the abbreviation before it. -/
def abbreviationEnd (before : List Atom) : List Atom → Option (List Atom × List Atom)
  | [] => none
  | a :: rest =>
    if a.isChar '\\' then none
    else if a.isChar ']' then
      let behind := match rest with
        | b :: more => if b.isChar ' ' then more else rest
        | [] => rest
      match behind with
      | b :: more =>
        if b.isChar ':' then some (before.reverse, more) else abbreviationEnd (a :: before) rest
      | [] => none
    else abbreviationEnd (a :: before) rest

/-- The definition of an abbreviation: `*[…]: …`. -/
def abbreviation : Recognizer (String × String) := fun atoms =>
  if Atom.startsWith ['*', '['] atoms then
    match abbreviationEnd [] (atoms.drop 2) with
    | some (name, rest) =>
      let (title, after) := restOfLine (skipToText rest)
      some ((Atom.textOf (Atom.strip name), Atom.textOf (Atom.strip title)), after)
    | none => none
  else none

/-- Spaces and the end of a line; what follows. -/
def finishLine (atoms : List Atom) : Option (List Atom) :=
  let rest := Atom.dropSpaces atoms
  if isLineEnd rest then some rest else none

/-- A title between two marks, the second of which is the last on its line. -/
def titleBetween (close : Char) (atoms : List Atom) : Option (List Atom × List Atom) :=
  let (line, after) := restOfLine atoms
  match (line.reverse.dropWhile (Atom.isChar ' ')) with
  | a :: inner => if a.isChar close then some (inner.reverse, after) else none
  | [] => none

/-- A title at the end of a line. -/
def title? (atoms : List Atom) : Option (List Atom × List Atom) :=
  match atoms with
  | a :: rest =>
    if a.isChar '"' then titleBetween '"' rest
    else if a.isChar '\x27' then titleBetween '\x27' rest
    else if a.isChar '(' then titleBetween ')' rest
    else none
  | [] => none

/-- What follows the address of a target: a title on the same or on the next line, or nothing. -/
def targetEnd (atoms : List Atom) : Option (Option String × List Atom) :=
  let here := Atom.dropSpaces atoms
  let next := skipToText atoms
  let titled (from? : List Atom) : Option (Option String × List Atom) :=
    (title? from?).map fun t => (some (Atom.textOf t.1), t.2)
  (titled next).or
    ((if isLineEnd next then some (none, next) else none).or
      ((titled here).or ((finishLine atoms).map fun rest => (none, rest))))

/-- Remove a character from the start, as often as it stands there. -/
def trimStartOf (c : Char) (s : String) : String := String.ofList (s.toList.dropWhile (· = c))

/-- Remove a character from the end, as often as it stands there. -/
def trimEndOf (c : Char) (s : String) : String :=
  String.ofList (s.toList.reverse.dropWhile (· = c)).reverse

/-- The key of a name: in lower case. -/
def keyOf (name : List Atom) : String := Text.lower (Atom.textOf name)

/-- The definition of a target: `[…]: …`. -/
def target : Recognizer (String × Target) := fun atoms =>
  if 3 < Atom.indent atoms then none
  else
    match Atom.dropSpaces atoms with
    | a :: rest =>
      if !a.isChar '[' then none
      else
        let isInside := fun (b : Atom) => !(b.isChar '[' || b.isChar ']')
        let name := rest.takeWhile isInside
        let afterName := rest.drop name.length
        if Atom.startsWith [']', ':'] afterName then
          let start := skipToText (afterName.drop 2)
          let address := start.takeWhile fun b => !b.isBlank
          if address.isEmpty then none
          else
            (targetEnd (start.drop address.length)).map fun (title, after) =>
              let link := trimEndOf '>' (trimStartOf '<' (Atom.textOf address))
              ((keyOf (Atom.strip name), ⟨link, title⟩), after)
        else none
    | [] => none

/-- The parts around a definition that hold text, as blocks. -/
def around {α : Type} (f : Found α) : List (List Atom) :=
  let isText := fun (atoms : List Atom) => !(Atom.strip atoms).isEmpty
  let isFeed := Atom.isChar '\n'
  (if isText f.before then [(f.before.reverse.dropWhile isFeed).reverse] else [])
    ++ (if isText f.after then [f.after.dropWhile isFeed] else [])

/-- The definition of an abbreviation without a title, or with an empty one between quotes, which
removes it. -/
def define (d : Definitions) (name title : String) : Definitions :=
  if title = "''" || title = "\"\"" then
    { d with abbreviations := Entries.erase d.abbreviations name }
  else { d with abbreviations := Entries.insert d.abbreviations name title }

/-- Take the first definition out of a block: the definitions with it, and the blocks around it. -/
def take? (abbreviated : Bool) (d : Definitions) (block : List Atom) :
    Option (Definitions × List (List Atom)) :=
  let lines := Atom.lines block
  let abbreviations := if abbreviated then find abbreviation [] lines else none
  match abbreviations with
  | some f =>
    if f.value.1.isEmpty || f.value.2.isEmpty then targets d lines
    else some (d.define f.value.1 f.value.2, around f)
  | none => targets d lines
where
  /-- Take the first target out of lines. -/
  targets (d : Definitions) (lines : List (List Atom)) :
      Option (Definitions × List (List Atom)) :=
    (find target [] lines).map fun f =>
      ({ d with targets := Entries.insert d.targets f.value.1 f.value.2 }, around f)

end Definitions

end CodeHighlight.Markdown
