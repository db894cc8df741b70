import CodeHighlight.Failure
import CodeHighlight.Text.Alphanumeric
import CodeHighlight.Text.Digits
import CodeHighlight.Tree

/-!
# Selectors

A selector is a chain of steps, the last of which is for the node itself and each earlier one for
the parent of the node of the step after it. A step asks for a label, for a named or an anonymous
node, and possibly for a place among the children of the parent.

In writing, selectors are separated by `,` and steps by `>`. A named label stands for itself, an
anonymous one is enclosed in double quotes, and `:nth-child(n)` asks for a place. Separators inside
quotes do not separate, and a backslash inside quotes takes the character after it literally.
-/

namespace CodeHighlight

/-- One step of a selector. -/
structure Step where
  label : String
  named : Bool
  place : Option Nat := none
  deriving DecidableEq, Repr

/-- A selector: the step for the node and the steps for its parents, nearest first. -/
structure Selector where
  target : Step
  above : List Step
  deriving DecidableEq, Repr

namespace Step

/-- The step fits the node at a cursor. -/
def fits (s : Step) (c : Cursor) : Bool :=
  c.node.label = s.label && c.node.named = s.named &&
    match s.place with
    | none => true
    | some i => c.place? = some i

end Step

/-- The steps fit the parents of the node at a cursor, nearest first. -/
def fitAbove (c : Cursor) : List Step → Bool
  | [] => true
  | s :: rest =>
    match c.parent? with
    | none => false
    | some p => s.fits p && fitAbove p rest

namespace Selector

/-- The selector fits the node at a cursor. -/
def fits (s : Selector) (c : Cursor) : Bool := s.target.fits c && fitAbove c s.above

/-- The number of steps. -/
def length (s : Selector) : Nat := s.above.length + 1

/-- Where a reader of selectors stands: outside quotes, inside, or behind a backslash inside. -/
inductive Quoting where
  | outside
  | inside
  | escaped
  deriving DecidableEq, Repr

/-- Put a character in front of the first piece. -/
def extend (c : Char) : List (List Char) → List (List Char)
  | [] => [[c]]
  | piece :: rest => (c :: piece) :: rest

/-- The pieces between the separators outside quotes; nothing when the text ends inside quotes. -/
def pieces (sep : Char) : Quoting → List Char → Option (List (List Char))
  | q, [] => if q = .outside then some [[]] else none
  | .escaped, c :: rest => (pieces sep .inside rest).map (extend c)
  | .inside, c :: rest =>
    let next : Quoting := if c = '\\' then .escaped else if c = '\x22' then .outside else .inside
    (pieces sep next rest).map (extend c)
  | .outside, c :: rest =>
    if c = '\x22' then (pieces sep .inside rest).map (extend c)
    else if c = sep then (pieces sep .outside rest).map ([] :: ·)
    else (pieces sep .outside rest).map (extend c)

/-- A failure to read a selector. -/
def refuse {α : Type} (message : String) : Except Trace α := .error (.plain .value message)

/-- The pieces between the separators outside quotes, without the blanks around them. -/
def split (sep : Char) (text : List Char) : Except Trace (List (List Char)) :=
  match pieces sep .outside text with
  | some ps => .ok (ps.map Text.strip)
  | none => refuse ("Unterminated quote in selector '" ++ String.ofList text ++ "'")

/-- The text of a quoted label up to its closing quote, and what follows the quote. A backslash
takes the next character literally, unless that is a line feed. -/
def readQuoted : List Char → Option (List Char × List Char)
  | [] => none
  | '\\' :: c :: rest =>
    if c = '\n' then none else (readQuoted rest).map fun r => (c :: r.1, r.2)
  | c :: rest =>
    if c = '\x22' then some ([], rest)
    else if c = '\\' then none
    else (readQuoted rest).map fun r => (c :: r.1, r.2)

/-- The first character of a named label. -/
def isLabelStart (c : Char) : Bool := c.isAlpha || c = '_'

/-- A further character of a named label. -/
def isLabelChar (c : Char) : Bool := Text.isWordChar c || c = '.' || c = '-'

/-- A label at the start of a text: the label, whether it is named, and what follows it. -/
def readLabel : List Char → Option (List Char × Bool × List Char)
  | [] => none
  | c :: rest =>
    if c = '\x22' then (readQuoted rest).map fun r => (r.1, false, r.2)
    else if isLabelStart c then
      some (c :: rest.takeWhile isLabelChar, true, rest.dropWhile isLabelChar)
    else none

/-- What introduces a place. -/
def placeMark : List Char := ":nth-child(".toList

/-- The digits of a place, or nothing when there is none; the text must hold nothing else. -/
def readPlace (text : List Char) : Option (Option (List Char)) :=
  match text with
  | [] => some none
  | text =>
    if placeMark.isPrefixOf text then
      let rest := text.drop placeMark.length
      let digits := rest.takeWhile Text.isDecimalDigit
      if digits.isEmpty || rest.dropWhile Text.isDecimalDigit != [')'] then none
      else some (some digits)
    else none

/-- The most digits that a number may have. -/
def digitLimit : Nat := Text.mostDigits

/-- The number that decimal digits of any script write. -/
def number (digits : List Char) : Except Trace Nat :=
  if digitLimit < digits.length then
    refuse (Text.tooManyDigits digits.length)
  else .ok (digits.foldl (fun n c => n * 10 + (Text.digitValue? c).getD 0) 0)

/-- Read a step. -/
def readStep (text : List Char) : Except Trace Step :=
  let bad := refuse ("Invalid scope selector step '" ++ String.ofList text ++ "'")
  match readLabel text with
  | none => bad
  | some (label, named, rest) =>
    match readPlace rest with
    | none => bad
    | some none => .ok ⟨String.ofList label, named, none⟩
    | some (some digits) => do
      let n ← number digits
      pure ⟨String.ofList label, named, some n⟩

/-- Read one selector. -/
def ofText (text : List Char) : Except Trace Selector := do
  let parts ← split '>' text
  let steps ← parts.mapM readStep
  match steps.reverse with
  | [] => refuse ("Invalid scope selector step '" ++ String.ofList text ++ "'")
  | target :: above => pure ⟨target, above⟩

/-- Read the selectors of a group, each with its text. -/
def ofGroup (group : String) : Except Trace (List (String × Selector)) := do
  let parts ← split ',' group.toList
  parts.mapM fun part => do
    if part.isEmpty then refuse ("Empty selector in '" ++ group ++ "'")
    else
      let s ← ofText part
      pure (String.ofList part, s)

end Selector

end CodeHighlight
