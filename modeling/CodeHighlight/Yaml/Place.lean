import CodeHighlight.Failure

/-!
# Places in a text

What is left of a text, with the number of characters, lines and columns before it. The characters
that end a line are the carriage return, the line feed, the next-line mark and the two separators;
a carriage return and a line feed are one line break.
-/

namespace CodeHighlight.Yaml

/-- A failure to read, of the given kind. The wording of these failures is not part of what users
are promised. -/
def fault (name : String) : Trace := .plain (.yaml name) "<yaml>"

/-- Refuse a text whose tokens cannot be read. -/
def badToken {α : Type} : Except Trace α := .error (fault "ScannerError")

/-- A character that ends a line. -/
def isBreak (c : Char) : Bool :=
  c = '\r' || c = '\n' || c = '\x85' || c = '\u2028' || c = '\u2029'

/-- The end of the text or of a line. -/
def endsLine (c : Option Char) : Bool := c.all isBreak

/-- The end of the text or of a line, or a space. -/
def endsField (c : Option Char) : Bool := c.all fun c => c = ' ' || isBreak c

/-- The end of the text or of a line, a space or a tab. -/
def endsWord (c : Option Char) : Bool := c.all fun c => c = ' ' || c = '\t' || isBreak c

/-- The rest of a text and where it starts. -/
structure Place where
  rest : List Char
  index : Nat := 0
  line : Nat := 0
  column : Nat := 0

namespace Place

/-- The character so many places ahead. -/
def peek (p : Place) (ahead : Nat) : Option Char := p.rest[ahead]?

/-- The first character. -/
def head (p : Place) : Option Char := p.rest.head?

/-- The first character is the given one. -/
def startsWith (p : Place) (c : Char) : Bool := p.head = some c

/-- Go on by one character. -/
def step (p : Place) : Place :=
  match p.rest with
  | [] => p
  | c :: rest =>
    if c = '\n' || c = '\x85' || c = '\u2028' || c = '\u2029'
        || (c = '\r' && rest.head? != some '\n') then
      ⟨rest, p.index + 1, p.line + 1, 0⟩
    else ⟨rest, p.index + 1, p.line, if c = '\ufeff' then p.column else p.column + 1⟩

/-- Go on by several characters. -/
def skip (p : Place) : Nat → Place
  | 0 => p
  | n + 1 => p.step.skip n

/-- Go on as long as characters are of a kind. -/
def skipWhile (p : Place) (kind : Char → Bool) : Place := p.skip (p.rest.takeWhile kind).length

/-- The characters of a kind at the start, and the place behind them. -/
def takeWhile (p : Place) (kind : Char → Bool) : List Char × Place :=
  (p.rest.takeWhile kind, p.skipWhile kind)

/-- Go on behind spaces. -/
def skipSpaces (p : Place) : Place := p.skipWhile (· = ' ')

/-- Go on to the end of the line. -/
def skipLine (p : Place) : Place := p.skipWhile fun c => !isBreak c

/-- A line break as it counts in a text, and the place behind it; nothing when there is none. -/
def lineBreak (p : Place) : List Char × Place :=
  match p.rest with
  | '\r' :: '\n' :: _ => (['\n'], p.skip 2)
  | c :: _ =>
    if c = '\u2028' || c = '\u2029' then ([c], p.step)
    else if isBreak c then (['\n'], p.step)
    else ([], p)
  | [] => ([], p)

/-- A mark that separates documents stands here. -/
def atSeparator (p : Place) : Bool :=
  ("---".toList.isPrefixOf p.rest || "...".toList.isPrefixOf p.rest) && endsWord (p.peek 3)

/-- Go on over the rest of a line that may hold only a comment, and over its end. -/
def ignoreLine (p : Place) : Except Trace Place :=
  let p := p.skipSpaces
  let p := if p.startsWith '#' then p.skipLine else p
  if endsLine p.head then .ok p.lineBreak.2 else badToken

end Place

end CodeHighlight.Yaml
