/-!
# Blanks, words and lines

The blank characters, the characters that end a line, and the ways text is cut at them:

* `strip` removes the blanks at both ends;
* `words` lists the maximal runs of characters that are not blank;
* `brokenLines` lists the lines, each with the break that ends it, and `lines` drops the breaks;
* `cutAt` cuts at every occurrence of one character.

Every line break but the carriage return followed by a line feed is one character, and every one of
these characters is blank.
-/

namespace CodeHighlight.Text

/-- Spaces of all widths, tabs, line and paragraph separators, and the four information
separators. -/
def isBlank (c : Char) : Bool :=
  let n := c.toNat
  (9 ≤ n && n ≤ 13) || (0x1c ≤ n && n ≤ 0x20) || n == 0x85 || n == 0xa0 || n == 0x1680 ||
    (0x2000 ≤ n && n ≤ 0x200a) || n == 0x2028 || n == 0x2029 || n == 0x202f || n == 0x205f ||
    n == 0x3000

/-- A character that ends a line. -/
def isLineBreak (c : Char) : Bool :=
  let n := c.toNat
  (10 ≤ n && n ≤ 13) || (0x1c ≤ n && n ≤ 0x1e) || n == 0x85 || n == 0x2028 || n == 0x2029

/-- The text without the blanks at its start. -/
def stripStart (cs : List Char) : List Char := cs.dropWhile isBlank

/-- The text without the blanks at its end. -/
def stripEnd (cs : List Char) : List Char := (cs.reverse.dropWhile isBlank).reverse

/-- The text without the blanks at its two ends. -/
def strip (cs : List Char) : List Char := stripEnd (stripStart cs)

/-- `strip` on a string. -/
def trim (s : String) : String := String.ofList (strip s.toList)

/-- Only blanks, or nothing. -/
def isAllBlank (cs : List Char) : Bool := cs.all isBlank

/-- Maximal runs of characters that fail `sep`, the run `run` being under way (latest character
first). -/
def fieldsFrom (sep : Char → Bool) (run : List Char) : List Char → List (List Char)
  | [] => if run.isEmpty then [] else [run.reverse]
  | c :: rest =>
    if sep c then
      if run.isEmpty then fieldsFrom sep [] rest else run.reverse :: fieldsFrom sep [] rest
    else fieldsFrom sep (c :: run) rest

/-- The maximal runs of characters that fail `sep`. -/
def fields (sep : Char → Bool) (cs : List Char) : List (List Char) := fieldsFrom sep [] cs

/-- The maximal runs of characters that are not blank. -/
def words (s : String) : List String := (fields isBlank s.toList).map String.ofList

/-- The pieces between the occurrences of a character; there is always one more piece than
occurrences. -/
def cutAt (sep : Char) : List Char → List (List Char)
  | [] => [[]]
  | c :: rest =>
    if c = sep then [] :: cutAt sep rest
    else
      match cutAt sep rest with
      | [] => [[c]]
      | piece :: more => (c :: piece) :: more

/-- Lines with their breaks, the line `line` being under way (latest character first). -/
def brokenLinesFrom (line : List Char) : List Char → List (List Char × List Char)
  | [] => if line.isEmpty then [] else [(line.reverse, [])]
  | '\r' :: '\n' :: rest => (line.reverse, ['\r', '\n']) :: brokenLinesFrom [] rest
  | c :: rest =>
    if isLineBreak c then (line.reverse, [c]) :: brokenLinesFrom [] rest
    else brokenLinesFrom (c :: line) rest

/-- The lines of a text, each with the break that ends it; only the last can lack one. -/
def brokenLines (cs : List Char) : List (List Char × List Char) := brokenLinesFrom [] cs

/-- The lines of a text, without their breaks. -/
def lines (cs : List Char) : List (List Char) := (brokenLines cs).map Prod.fst

/-- The text with every carriage return, alone or before a line feed, as a line feed. -/
def unifyBreaks : List Char → List Char
  | [] => []
  | '\r' :: '\n' :: rest => '\n' :: unifyBreaks rest
  | c :: rest => (if c = '\r' then '\n' else c) :: unifyBreaks rest

/-- Texts joined with `sep` between neighbours. -/
def joinWith (sep : List Char) : List (List Char) → List Char
  | [] => []
  | [x] => x
  | x :: y :: rest => x ++ sep ++ joinWith sep (y :: rest)

/-- `sub` stands somewhere in `cs`. -/
def contains (sub : List Char) : List Char → Bool
  | [] => sub.isEmpty
  | c :: rest => sub.isPrefixOf (c :: rest) || contains sub rest

end CodeHighlight.Text
