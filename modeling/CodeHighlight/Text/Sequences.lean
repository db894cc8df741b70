/-!
# Control sequences

What tells a terminal to change colours or to move about: an escape character with an opening
bracket behind it, parameters, and the letter of a command. A stream that is no terminal gets texts
without these sequences.
-/

namespace CodeHighlight.Text

/-- A character of the parameters of a control sequence. -/
def isParameter (c : Char) : Bool := c.isDigit || c = ';' || c = '?'

/-- The number of characters of the control sequence at the start of a text, or zero. -/
def sequenceLength : List Char → Nat
  | '\x1b' :: '[' :: rest =>
    match rest.dropWhile isParameter with
    | c :: _ => if c.isAlpha then (rest.takeWhile isParameter).length + 3 else 0
    | [] => 0
  | _ => 0

/-- A text without its control sequences, the given number of characters still belonging to one. -/
def dropSequences : Nat → List Char → List Char
  | _, [] => []
  | n + 1, _ :: rest => dropSequences n rest
  | 0, c :: rest =>
    match sequenceLength (c :: rest) with
    | 0 => c :: dropSequences 0 rest
    | n + 1 => dropSequences n rest

/-- A text without its control sequences. -/
def withoutSequences (s : String) : String := String.ofList (dropSequences 0 s.toList)

end CodeHighlight.Text
