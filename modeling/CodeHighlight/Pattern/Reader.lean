import CodeHighlight.Pattern.Basic
import CodeHighlight.Text.Digits

/-!
# Reading search patterns

The notation of patterns: literals, `.`, sets in brackets, `^`, `$`, groups, alternatives, and the
repetitions `*`, `+`, `?`, `{n}`, `{n,}`, `{n,m}`, each with an optional `?` after it that asks for
few repetitions and makes no difference to a search. A backslash starts an escape.

The text is cut into units, a backslash and the character after it being one. The reader looks one
unit ahead, and a backslash at the very end is a fault as soon as it comes into view.
-/

namespace CodeHighlight.Pattern

/-- A unit of the notation. -/
inductive Symbol where
  | plain (c : Char)
  | escape (c : Char)
  | dangling
  deriving DecidableEq, Repr

/-- The units of a text. -/
def symbols : List Char → List Symbol
  | [] => []
  | ['\\'] => [.dangling]
  | '\\' :: c :: rest => .escape c :: symbols rest
  | c :: rest => .plain c :: symbols rest

/-- The number of characters of a unit. -/
def Symbol.size : Symbol → Nat
  | .plain _ => 1
  | .escape _ => 2
  | .dangling => 1

/-- The characters of a unit. -/
def Symbol.text : Symbol → String
  | .plain c => String.singleton c
  | .escape c => String.ofList ['\\', c]
  | .dangling => "\\"

/-- What is wrong with a pattern. -/
inductive Fault where
  | malformed (message : String) (position : Nat)
  | tooManyRepetitions
  | tooManyDigits (count : Nat)
  deriving DecidableEq, Repr

/-- What is left of the notation and the position where it starts. -/
structure Source where
  symbols : List Symbol
  position : Nat

namespace Source

/-- A fault at a position. -/
def fail {α : Type} (message : String) (position : Nat) : Except Fault α :=
  .error (.malformed message position)

/-- The next unit, if it is the character `c`, is in view. -/
def sees (s : Source) (c : Char) : Bool := s.symbols.head? == some (.plain c)

/-- Go past a unit; the unit after it must not be a backslash at the end. -/
def past (s : Source) (x : Symbol) (rest : List Symbol) : Except Fault Source :=
  let position := s.position + x.size
  if rest == [.dangling] then fail "bad escape (end of pattern)" position
  else .ok ⟨rest, position⟩

/-- The next unit. -/
def next (s : Source) : Except Fault (Option Symbol × Source) :=
  match s.symbols with
  | [] => .ok (none, s)
  | x :: rest => (s.past x rest).map fun s => (some x, s)

/-- Go past the character `c` if it comes next. -/
def accept (s : Source) (c : Char) : Except Fault (Bool × Source) :=
  match s.symbols with
  | .plain d :: rest =>
    if c == d then (s.past (.plain d) rest).map fun s => (true, s) else .ok (false, s)
  | _ => .ok (false, s)

/-- At most `n` characters that pass a test. -/
def run (test : Char → Bool) : Nat → Source → Except Fault (List Char × Source)
  | 0, s => .ok ([], s)
  | n + 1, s =>
    match s.symbols with
    | .plain c :: rest =>
      if test c then do
        let s ← s.past (.plain c) rest
        let (cs, s) ← run test n s
        pure (c :: cs, s)
      else .ok ([], s)
    | _ => .ok ([], s)

/-- All characters that pass a test. -/
def runAll (test : Char → Bool) (s : Source) : Except Fault (List Char × Source) :=
  s.run test s.symbols.length

end Source

/-- An octal digit. -/
def isOctal (c : Char) : Bool := '0' ≤ c && c ≤ '7'

/-- A hexadecimal digit. -/
def isHex (c : Char) : Bool := c.isDigit || ('a' ≤ c && c ≤ 'f') || ('A' ≤ c && c ≤ 'F')

/-- The value of a digit of base up to sixteen. -/
def digitValue (c : Char) : Nat :=
  if c.isDigit then c.toNat - 48 else if 'a' ≤ c then c.toNat - 87 else c.toNat - 55

/-- The number that digits write. -/
def number (base : Nat) (cs : List Char) : Nat := cs.foldl (fun n c => n * base + digitValue c) 0

/-- What an escape or a character means inside a set: a code point or a class. -/
inductive Unit where
  | code (n : Nat)
  | named (c : CharClass) (negated : Bool)

/-- The member of a set. -/
def Unit.item : Unit → SetItem
  | .code n => .range n n
  | .named c negated => .named c negated

/-- The pattern for one character. -/
def Unit.pattern : Unit → Pattern
  | .code n => .code n
  | .named c negated => .set false [.named c negated]

/-- Escapes for control characters. -/
def control? : Char → Option Nat
  | 'a' => some 7
  | 'f' => some 12
  | 'n' => some 10
  | 'r' => some 13
  | 't' => some 9
  | 'v' => some 11
  | '\\' => some 92
  | _ => none

/-- Escapes for classes. -/
def class? : Char → Option Unit
  | 'd' => some (.named .digit false)
  | 'D' => some (.named .digit true)
  | 's' => some (.named .blank false)
  | 'S' => some (.named .blank true)
  | 'w' => some (.named .word false)
  | 'W' => some (.named .word true)
  | _ => none

/-- Escapes for conditions on places. -/
def anchor? : Char → Option Anchor
  | 'A' => some .start
  | 'b' => some .wordEdge
  | 'B' => some .noWordEdge
  | 'Z' => some .stop
  | _ => none

/-- An escape with exactly `n` hexadecimal digits; `s` is what follows its letter. -/
def readHex (letter : Char) (n : Nat) (s : Source) : Except Fault (Unit × Source) := do
  let (cs, t) ← s.run isHex n
  if cs.length = n then
    if 0x10ffff < number 16 cs then
      Source.fail ("bad escape " ++ String.ofList ('\\' :: letter :: cs)) (s.position - 2)
    else pure (.code (number 16 cs), t)
  else Source.fail ("incomplete escape " ++ String.ofList ('\\' :: letter :: cs)) (s.position - 2)

/-- An octal escape of at most three digits, the first of which is `c`. -/
def readOctal (c : Char) (s : Source) : Except Fault (Unit × Source) := do
  let (cs, t) ← s.run isOctal 2
  let n := number 8 (c :: cs)
  if 0o377 < n then
    Source.fail ("octal escape value " ++ String.ofList ('\\' :: c :: cs)
      ++ " outside of range 0-0o377") (s.position - 2)
  else pure (.code n, t)

/-- A letter or digit that no escape uses, or else the character itself. -/
def readOther (c : Char) (s : Source) : Except Fault (Unit × Source) :=
  if c.isAlphanum then Source.fail ("bad escape " ++ String.ofList ['\\', c]) (s.position - 2)
  else .ok (.code c.toNat, s)

/-- An escape inside a set. -/
def readSetEscape (c : Char) (s : Source) : Except Fault (Unit × Source) :=
  match control? c, class? c with
  | some n, _ => .ok (.code n, s)
  | none, some u => .ok (u, s)
  | none, none =>
    if c = 'b' then .ok (.code 8, s)
    else if c = 'x' then readHex c 2 s
    else if c = 'u' then readHex c 4 s
    else if c = 'U' then readHex c 8 s
    else if isOctal c then readOctal c s
    else readOther c s

/-- An escape that starts with a digit other than zero: three octal digits are a code point, and
there are no groups to refer to. -/
def readDigits (c : Char) (s : Source) : Except Fault (Unit × Source) := do
  match s.symbols with
  | .plain d :: .plain e :: _ =>
    if isOctal c && isOctal d && isOctal e then readOctal c s
    else if d.isDigit then
      Source.fail ("invalid group reference " ++ String.ofList [c, d]) (s.position - 1)
    else Source.fail ("invalid group reference " ++ String.ofList [c]) (s.position - 1)
  | .plain d :: _ =>
    if d.isDigit then
      Source.fail ("invalid group reference " ++ String.ofList [c, d]) (s.position - 1)
    else Source.fail ("invalid group reference " ++ String.ofList [c]) (s.position - 1)
  | _ => Source.fail ("invalid group reference " ++ String.ofList [c]) (s.position - 1)

/-- An escape outside sets. -/
def readEscape (c : Char) (s : Source) : Except Fault (Unit × Source) :=
  match control? c, class? c with
  | some n, _ => .ok (.code n, s)
  | none, some u => .ok (u, s)
  | none, none =>
    if c = 'x' then readHex c 2 s
    else if c = 'u' then readHex c 4 s
    else if c = 'U' then readHex c 8 s
    else if c = '0' then readOctal c s
    else if c.isDigit then readDigits c s
    else readOther c s

/-- One unit inside a set. -/
def readSetUnit (x : Symbol) (s : Source) : Except Fault (Unit × Source) :=
  match x with
  | .plain c => .ok (.code c.toNat, s)
  | .escape c => readSetEscape c s
  | .dangling => .ok (.code 92, s)

/-- The members of a set up to its closing bracket, behind the members `found` (latest first). The
bracket of the set opened at `start`; a closing bracket in first place and a hyphen in first or last
place stand for themselves. -/
def readSet (start : Nat) : Nat → List SetItem → Source → Except Fault (List SetItem × Source)
  | 0, _, _ => Source.fail "unterminated character set" start
  | fuel + 1, found, s => do
    match ← s.next with
    | (none, _) => Source.fail "unterminated character set" start
    | (some x, s) =>
      if x == .plain ']' && !found.isEmpty then pure (found.reverse, s)
      else
        let (low, s) ← readSetUnit x s
        match ← s.accept '-' with
        | (false, s) => readSet start fuel (low.item :: found) s
        | (true, s) =>
          match ← s.next with
          | (none, _) => Source.fail "unterminated character set" start
          | (some y, s) =>
            if y == .plain ']' then pure ((.range 45 45 :: low.item :: found).reverse, s)
            else
              let (high, s) ← readSetUnit y s
              let bad := Source.fail ("bad character range " ++ x.text ++ "-" ++ y.text)
                (s.position - (x.size + 1 + y.size))
              match low, high with
              | .code m, .code n =>
                if n < m then bad else readSet start fuel (.range m n :: found) s
              | _, _ => bad

/-- The counts of a repetition: least and greatest. -/
abbrev Counts := Nat × Option Nat

/-- Counts beyond this are refused. -/
def countLimit : Nat := 4294967295

/-- The count that digits write. -/
def readCount (digits : List Char) : Except Fault Nat :=
  if Text.mostDigits < digits.length then .error (.tooManyDigits digits.length)
  else if countLimit ≤ number 10 digits then .error .tooManyRepetitions
  else .ok (number 10 digits)

/-- The counts in braces, after the opening one; nothing when this is no repetition and the brace
stands for itself. -/
def readCounts (s : Source) : Except Fault (Option Counts × Source) := do
  if s.sees '}' then pure (none, s)
  else
    let (low, t) ← s.runAll Char.isDigit
    let (comma, t) ← t.accept ','
    let (high, t) ← if comma then t.runAll Char.isDigit else pure (low, t)
    match ← t.accept '}' with
    | (false, _) => pure (none, s)
    | (true, t) =>
      let least ← readCount low
      let greatest ← if high.isEmpty then pure none else (readCount high).map some
      if greatest.any (· < least) then
        Source.fail "min repeat greater than max repeat" s.position
      else pure (some (least, greatest), t)

/-- What stands before a repetition. -/
inductive Piece where
  | anchor (a : Anchor)
  | repetition (p : Pattern)
  | other (p : Pattern)

/-- The pattern of a piece. -/
def Piece.pattern : Piece → Pattern
  | .anchor a => .anchor a
  | .repetition p | .other p => p

/-- Pieces one after the other; the latest comes first. -/
def sequence (pieces : List Piece) : Pattern :=
  pieces.foldl (fun later p => match later with
    | .empty => p.pattern
    | later => .seq p.pattern later) .empty

/-- Repeat the latest piece; `position` is where the repetition stands. -/
def repeatLatest (counts : Counts) (position : Nat) (pieces : List Piece) (s : Source) :
    Except Fault (List Piece × Source) :=
  match pieces with
  | [] | .anchor _ :: _ => Source.fail "nothing to repeat" position
  | .repetition _ :: _ => Source.fail "multiple repeat" position
  | .other p :: earlier => do
    let (_, s) ← s.accept '?'
    pure (.repetition (.repeated p counts.1 counts.2) :: earlier, s)

/-- The mark after the opening parenthesis of a group. -/
def readGroupMark (s : Source) : Except Fault Source := do
  match ← s.accept '?' with
  | (false, s) => pure s
  | (true, s) =>
    match ← s.next with
    | (none, s) => Source.fail "unexpected end of pattern" s.position
    | (some x, t) =>
      if x == .plain ':' then pure t
      else Source.fail ("unknown extension ?" ++ x.text) (t.position - (x.size + 1))

mutual

/-- Alternatives up to a closing parenthesis or the end. -/
def readAlternatives : Nat → Source → Except Fault (Pattern × Source)
  | 0, s => .ok (.empty, s)
  | fuel + 1, s => do
    let (p, s) ← readPieces fuel [] s
    match ← s.accept '|' with
    | (false, s) => pure (p, s)
    | (true, s) =>
      let (q, s) ← readAlternatives fuel s
      pure (.either p q, s)

/-- The rest of one alternative, behind the pieces read so far (latest first). -/
def readPieces : Nat → List Piece → Source → Except Fault (Pattern × Source)
  | 0, pieces, s => .ok (sequence pieces, s)
  | fuel + 1, pieces, s => do
    if s.symbols.isEmpty || s.sees '|' || s.sees ')' then pure (sequence pieces, s)
    else
      let here := s.position
      match ← s.next with
      | (none, s) => pure (sequence pieces, s)
      | (some (.escape c), s) =>
        match anchor? c with
        | some a => readPieces fuel (.anchor a :: pieces) s
        | none =>
          let (u, s) ← readEscape c s
          readPieces fuel (.other u.pattern :: pieces) s
      | (some .dangling, s) => readPieces fuel pieces s
      | (some (.plain c), s) =>
        if c = '.' then readPieces fuel (.other .any :: pieces) s
        else if c = '^' then readPieces fuel (.anchor .start :: pieces) s
        else if c = '$' then readPieces fuel (.anchor .lastLineEnd :: pieces) s
        else if c = '[' then
          let (negated, s) ← s.accept '^'
          let (items, s) ← readSet here (s.symbols.length + 1) [] s
          readPieces fuel (.other (.set negated items) :: pieces) s
        else if c = '(' then
          let s ← readGroupMark s
          let (p, s) ← readAlternatives fuel s
          match ← s.accept ')' with
          | (true, s) => readPieces fuel (.other p :: pieces) s
          | (false, _) => Source.fail "missing ), unterminated subpattern" here
        else if c = '*' then
          let (pieces, s) ← repeatLatest (0, none) here pieces s
          readPieces fuel pieces s
        else if c = '+' then
          let (pieces, s) ← repeatLatest (1, none) here pieces s
          readPieces fuel pieces s
        else if c = '?' then
          let (pieces, s) ← repeatLatest (0, some 1) here pieces s
          readPieces fuel pieces s
        else if c = '{' then
          match ← readCounts s with
          | (none, s) => readPieces fuel (.other (.code c.toNat) :: pieces) s
          | (some counts, s) =>
            let (pieces, s) ← repeatLatest counts here pieces s
            readPieces fuel pieces s
        else readPieces fuel (.other (.code c.toNat) :: pieces) s

end

/-- Read a pattern. -/
def ofText (text : String) : Except Fault Pattern := do
  let units := symbols text.toList
  if units == [.dangling] then Source.fail "bad escape (end of pattern)" 0
  else
    let (p, s) ← readAlternatives (2 * units.length + 2) ⟨units, 0⟩
    if s.symbols.isEmpty then pure p else Source.fail "unbalanced parenthesis" s.position

/-- The wording of a fault at a position of a pattern; line and column are given when the pattern
has several lines. -/
def wording (pattern : String) (message : String) (position : Nat) : String :=
  let cs := pattern.toList
  let before := cs.take position
  let column := position - (match (before.reverse.findIdx? (· == '\n')) with
    | some i => before.length - i
    | none => 0) + 1
  message ++ " at position " ++ toString position
    ++ (if cs.contains '\n' then
      " (line " ++ toString (before.count '\n' + 1) ++ ", column " ++ toString column ++ ")"
    else "")

end CodeHighlight.Pattern
