import CodeHighlight.Text.Printable
import CodeHighlight.Text.Utf8

/-!
# Quoted literals

A text between quotes on one line. The single quote is used unless the text holds one and holds no
double quote. The quote and the backslash are escaped, and so is every character that is not
printable.
-/

namespace CodeHighlight.Text.Quoted
open Utf8 (hex)

/-- The quote that encloses a text. -/
def quoteFor (cs : List Char) : Char :=
  if cs.contains '\x27' && !cs.contains '\x22' then '\x22' else '\x27'

/-- A character inside the quotes `quote`. -/
def escapeChar (quote c : Char) : String :=
  if c = quote || c = '\\' then String.ofList ['\\', c]
  else if c = '\n' then "\\n"
  else if c = '\r' then "\\r"
  else if c = '\t' then "\\t"
  else if isPrintable c then String.singleton c
  else if c.toNat < 0x100 then "\\x" ++ hex 2 c.toNat
  else if c.toNat < 0x10000 then "\\u" ++ hex 4 c.toNat
  else "\\U" ++ hex 8 c.toNat

/-- A text as a quoted literal. -/
def quote (s : String) : String :=
  let q := quoteFor s.toList
  String.singleton q ++ String.join (s.toList.map (escapeChar q)) ++ String.singleton q

/-- A byte inside the quotes `quote`: printable ASCII is shown as itself. -/
def escapeByte (quote : Char) (b : UInt8) : String :=
  let c := Char.ofNat b.toNat
  if b < 0x80 then escapeChar quote c else "\\x" ++ hex 2 b.toNat

/-- Bytes as a quoted literal with a mark in front. -/
def quoteBytes (bs : Utf8.Bytes) : String :=
  let q := quoteFor (bs.map fun b => Char.ofNat b.toNat)
  "b" ++ String.singleton q ++ String.join (bs.map (escapeByte q)) ++ String.singleton q

end CodeHighlight.Text.Quoted
