import CodeHighlight.Text.Digits
import CodeHighlight.Yaml.Place

/-!
# Scalars in a text

The texts of plain, quoted and block scalars. Line breaks inside plain and quoted scalars are
folded: one break is a space, and of several the first is left out.
-/

namespace CodeHighlight.Yaml

/-- A line break and the breaks after it, folded. -/
def folded (first breaks : List Char) : List Char :=
  (if first != ['\n'] then first else if breaks.isEmpty then [' '] else []) ++ breaks

/-! ## Plain scalars -/

/-- Blank lines inside a plain scalar, in at most the given number of steps; nothing at a mark that
separates documents. -/
def plainBreaks : Nat → List Char → Place → Option (List Char) × Place
  | 0, breaks, p => (some breaks, p)
  | n + 1, breaks, p =>
    if p.startsWith ' ' then plainBreaks n breaks p.step
    else
      match p.lineBreak with
      | ([], p) => (some breaks, p)
      | (b, p) => if p.atSeparator then (none, p) else plainBreaks n (breaks ++ b) p

/-- The blanks behind a piece of a plain scalar: the text they stand for, whether a line ends in
them, and the place behind them. -/
def plainSpaces (p : Place) : List Char × Bool × Place :=
  let (spaces, p) := p.takeWhile (· = ' ')
  match p.lineBreak with
  | ([], p) => (spaces, false, p)
  | (first, p) =>
    if p.atSeparator then ([], true, p)
    else
      match plainBreaks p.rest.length [] p with
      | (some breaks, p) => (folded first breaks, true, p)
      | (none, p) => ([], true, p)

/-- The number of characters of a piece of a plain scalar. -/
def plainLength (inFlow : Bool) : List Char → Nat
  | [] => 0
  | c :: rest =>
    let next := rest.head?
    if endsWord (some c) then 0
    else if c = ':' &&
        (endsWord next || (inFlow && next.any (",[]\x7b\x7d".toList.contains ·))) then 0
    else if inFlow && ",?[]\x7b\x7d".toList.contains c then 0
    else plainLength inFlow rest + 1

/-- A plain scalar whose lines have at least the given indentation: its text, whether a line ends
behind its last piece, and the place behind it. -/
def plainScalar (inFlow : Bool) (indent : Int) :
    Nat → List Char → List Char → Bool → Place → List Char × Bool × Place
  | 0, text, _, crossed, p => (text, crossed, p)
  | n + 1, text, spaces, crossed, p =>
    let size := plainLength inFlow p.rest
    if p.startsWith '#' || size = 0 then (text, crossed, p)
    else
      let text := text ++ spaces ++ p.rest.take size
      let (spaces, crossed, p) := plainSpaces (p.skip size)
      if spaces.isEmpty || p.startsWith '#' || (!inFlow && (p.column : Int) < indent) then
        (text, crossed, p)
      else plainScalar inFlow indent n text spaces crossed p

/-! ## Quoted scalars -/

/-- The characters that a letter stands for behind a backslash. -/
def escapes : List (Char × Char) :=
  [('0', '\x00'), ('a', '\x07'), ('b', '\x08'), ('t', '\t'), ('\t', '\t'), ('n', '\n'),
   ('v', '\x0b'), ('f', '\x0c'), ('r', '\r'), ('e', '\x1b'), (' ', ' '), ('"', '"'), ('\\', '\\'),
   ('/', '/'), ('N', '\x85'), ('_', '\xa0'), ('L', '\u2028'), ('P', '\u2029')]

/-- The number of hexadecimal digits that follow a letter behind a backslash. -/
def escapeDigits : List (Char × Nat) := [('x', 2), ('u', 4), ('U', 8)]

/-- Blank lines inside a quoted scalar, in at most the given number of steps. -/
def quotedBreaks : Nat → List Char → Place → Except Trace (List Char × Place)
  | 0, breaks, p => .ok (breaks, p)
  | n + 1, breaks, p =>
    if p.atSeparator then badToken
    else
      let p := p.skipWhile fun c => c = ' ' || c = '\t'
      match p.lineBreak with
      | ([], p) => .ok (breaks, p)
      | (b, p) => quotedBreaks n (breaks ++ b) p

/-- The blanks inside a quoted scalar. -/
def quotedSpaces (p : Place) : Except Trace (List Char × Place) :=
  let (spaces, p) := p.takeWhile fun c => c = ' ' || c = '\t'
  if p.head.isNone then badToken
  else
    match p.lineBreak with
    | ([], p) => .ok (spaces, p)
    | (first, p) => do
      let (breaks, p) ← quotedBreaks (p.rest.length + 1) [] p
      pure (folded first breaks, p)

/-- A character by its number. -/
def numbered (n : Nat) : Except Trace Char :=
  if n < 0x110000 then .ok (Char.ofNat n)
  else if n < 0x80000000 then .error (.plain .value "chr() arg not in range(0x110000)")
  else .error (.plain (.system "OverflowError") "Python int too large to convert to C int")

/-- What stands behind a backslash. -/
def escaped (p : Place) : Except Trace (List Char × Place) :=
  match p.head with
  | none => badToken
  | some c =>
    match escapes.lookup c, escapeDigits.lookup c with
    | some d, _ => .ok ([d], p.step)
    | none, some count =>
      let digits := p.step.rest.take count
      if digits.length = count && digits.all Text.isHexDigit then do
        let d ← numbered (Text.hexValue digits)
        pure ([d], p.skip (count + 1))
      else badToken
    | none, none =>
      if isBreak c then
        let p := p.lineBreak.2
        quotedBreaks (p.rest.length + 1) [] p
      else badToken

/-- The text of a quoted scalar behind its first quote and the place behind its last, in at most
the given number of steps. -/
def quotedScalar (double : Bool) : Nat → List Char → Place → Except Trace (List Char × Place)
  | 0, _, _ => badToken
  | n + 1, text, p =>
    match p.rest with
    | [] => badToken
    | c :: rest =>
      if double then
        if c = '"' then .ok (text, p.step)
        else if c = '\\' then do
          let (more, p) ← escaped p.step
          quotedScalar double n (text ++ more) p
        else if endsWord (some c) then do
          let (more, p) ← quotedSpaces p
          quotedScalar double n (text ++ more) p
        else quotedScalar double n (text ++ [c]) p.step
      else if c = '\x27' then
        if rest.head? = some '\x27' then quotedScalar double n (text ++ [c]) (p.skip 2)
        else .ok (text, p.step)
      else if endsWord (some c) then do
        let (more, p) ← quotedSpaces p
        quotedScalar double n (text ++ more) p
      else quotedScalar double n (text ++ [c]) p.step

/-! ## Block scalars -/

/-- What becomes of the line breaks at the end of a block scalar. -/
inductive Chomping where
  | strip
  | clip
  | keep
  deriving DecidableEq

/-- The way of chomping that a mark asks for. -/
def chompingOf (c : Option Char) : Option Chomping :=
  match c with
  | some '+' => some .keep
  | some '-' => some .strip
  | _ => none

/-- An indentation mark, if there is one. -/
def indentMark (p : Place) : Except Trace (Option Nat × Place) :=
  match p.head with
  | some c =>
    if c.isDigit then
      if c = '0' then badToken else .ok (some (c.toNat - 48), p.step)
    else .ok (none, p)
  | none => .ok (none, p)

/-- The marks behind the sign of a block scalar. -/
def blockMarks (p : Place) : Except Trace (Chomping × Option Nat × Place) := do
  let (chomping, indent, p) ← match chompingOf p.head with
    | some ch => do
      let (i, p) ← indentMark p.step
      pure (ch, i, p)
    | none => do
      let (i, p) ← indentMark p
      match i, chompingOf p.head with
      | some i, some ch => pure (ch, some i, p.step)
      | i, _ => pure (.clip, i, p)
  if endsField p.head then pure (chomping, indent, p) else badToken

/-- Blank lines before a block scalar without an indentation mark: their breaks and the widest
indentation among them and the line after them. -/
def blockIndent : Nat → List Char → Nat → Place → List Char × Nat × Place
  | 0, breaks, widest, p => (breaks, widest, p)
  | n + 1, breaks, widest, p =>
    if p.startsWith ' ' then
      let p := p.step
      blockIndent n breaks (max widest p.column) p
    else
      match p.lineBreak with
      | ([], p) => (breaks, widest, p)
      | (b, p) => blockIndent n (breaks ++ b) widest p

/-- Go on behind spaces up to a column. -/
def skipIndent (indent : Nat) (p : Place) : Place :=
  p.skip (min (indent - p.column) (p.rest.takeWhile (· = ' ')).length)

/-- Blank lines inside a block scalar. -/
def blockBreaks (indent : Nat) : Nat → List Char → Place → List Char × Place
  | 0, breaks, p => (breaks, p)
  | n + 1, breaks, p =>
    match (skipIndent indent p).lineBreak with
    | ([], p) => (breaks, p)
    | (b, p) => blockBreaks indent n (breaks ++ b) p

/-- A tab or a space. -/
def isTabOrSpace (c : Option Char) : Bool := c.any fun c => c = ' ' || c = '\t'

/-- The lines of a block scalar: the text, the last line break, the breaks behind it, and the place
behind them. -/
def blockLines (fold : Bool) (indent : Nat) :
    Nat → List Char → List Char → List Char → Place → List Char × List Char × List Char × Place
  | 0, text, last, breaks, p => (text, last, breaks, p)
  | n + 1, text, last, breaks, p =>
    if p.column = indent && p.head.isSome then
      let text := text ++ breaks
      let solid := !isTabOrSpace p.head
      let (line, p) := p.takeWhile fun c => !isBreak c
      let text := text ++ line
      let (last, p) := p.lineBreak
      let (breaks, p) := blockBreaks indent (p.rest.length + 1) [] p
      if p.column = indent && p.head.isSome then
        let joint :=
          if fold && last = ['\n'] && solid && !isTabOrSpace p.head then
            if breaks.isEmpty then [' '] else []
          else last
        blockLines fold indent n (text ++ joint) last breaks p
      else (text, last, breaks, p)
    else (text, last, breaks, p)

/-- A block scalar behind its sign, inside a block with the given indentation. -/
def blockScalar (fold : Bool) (outer : Int) (p : Place) : Except Trace (List Char × Place) := do
  let (chomping, mark, p) ← blockMarks p
  let p ← p.ignoreLine
  let least := max (outer + 1) 1
  let (indent, breaks, p) :=
    match mark with
    | none =>
      let (breaks, widest, p) := blockIndent (p.rest.length + 1) [] 0 p
      (max least.toNat widest, breaks, p)
    | some m =>
      let indent := least.toNat + m - 1
      let (breaks, p) := blockBreaks indent (p.rest.length + 1) [] p
      (indent, breaks, p)
  let (text, last, breaks, p) := blockLines fold indent (p.rest.length + 1) [] [] breaks p
  pure (match chomping with
    | .strip => text
    | .clip => text ++ last
    | .keep => text ++ last ++ breaks, p)

end CodeHighlight.Yaml
