import CodeHighlight.Html.NamedCharacters
import CodeHighlight.Text.Digits
import CodeHighlight.Text.Wide

/-!
# Character references

Characters written by name or by number. In texts and in attribute values they are read by
different rules: in texts a reference has been cut out already, while an attribute value is searched
for references, which may lack the semicolon.
-/

namespace CodeHighlight.Html
open Text (CodePoint Wide decimalValue hexValue isHexDigit)

/-- The code points that bytes from 0x80 to 0x9f stand for on old pages; the five bytes without a
character stand for themselves. -/
def controlReplacements : List Nat :=
  [0x20ac, 0x81, 0x201a, 0x192, 0x201e, 0x2026, 0x2020, 0x2021, 0x2c6, 0x2030, 0x160, 0x2039,
   0x152, 0x8d, 0x17d, 0x8f, 0x90, 0x2018, 0x2019, 0x201c, 0x201d, 0x2022, 0x2013, 0x2014, 0x2dc,
   0x2122, 0x161, 0x203a, 0x153, 0x9d, 0x17e, 0x178]

/-- What is written for a character that does not exist. -/
def replacement : Char := Char.ofNat 0xfffd

/-- The character that a control of old pages stands for. -/
def controlAt (n : Nat) : Char := Char.ofNat (controlReplacements.getD (n - 0x80) n)

/-- The code point with a number, old pages' controls replaced. -/
def pointAt (n : Nat) : CodePoint :=
  if 0x80 ≤ n && n < 0xa0 then .char (controlAt n)
  else if h : n - Text.firstHalf < 0x800 ∧ Text.firstHalf ≤ n then .half ⟨n - Text.firstHalf, h.1⟩
  else if n < 0x110000 then .char (Char.ofNat n)
  else .char replacement

/-- The value of a number with or without the mark of hexadecimal numbers. -/
def referenceValue (cs : List Char) : Nat :=
  match cs with
  | c :: rest => if c = 'x' || c = 'X' then hexValue rest else decimalValue cs
  | [] => 0

/-- The text of a reference by number in a text; it can be a half of a surrogate pair. -/
def numberedText (number : List Char) : Wide := [pointAt (referenceValue number)]

/-- The text of a reference by name in a text; a name that is not known is kept with its mark. -/
def namedText (name : List Char) : String :=
  String.ofList ((characters? (String.ofList name)).getD ('&' :: name))

/-- Code points that attribute values leave out. -/
def isLeftOut (n : Nat) : Bool :=
  (1 ≤ n && n ≤ 8) || n = 0xb || (0xe ≤ n && n ≤ 0x1f) || n = 0x7f || (0xfdd0 ≤ n && n ≤ 0xfdef)
    || (0xfffe ≤ n % 0x10000)

/-- The text of a reference by number in an attribute value. -/
def numberedValue (n : Nat) : List Char :=
  if n = 0 then [replacement]
  else if 0x80 ≤ n && n < 0xa0 then [controlAt n]
  else if 0x110000 ≤ n || (0xd800 ≤ n && n < 0xe000) then [replacement]
  else if isLeftOut n then []
  else [Char.ofNat n]

/-- The text of a name in an attribute value, given with its semicolon if it has one: that of the
name, or of the longest start of it that counts without a semicolon. -/
def namedValue (name : List Char) : List Char :=
  let exact :=
    if name.getLast? = some ';' then characters? (String.ofList name.dropLast)
    else if bareNames.contains (String.ofList name) then characters? (String.ofList name)
    else none
  match exact with
  | some cs => cs
  | none =>
    let longest := (List.range (name.length - 2)).findSome? fun i =>
      let size := name.length - 1 - i
      let start := String.ofList (name.take size)
      if bareNames.contains start then (characters? start).map fun cs => (cs, size) else none
    match longest with
    | some (cs, size) => cs ++ name.drop size
    | none => '&' :: name

/-- A character that a name in an attribute value may hold. -/
def isNameChar (c : Char) : Bool :=
  !(c = '\t' || c = '\n' || c = '\x0c' || c = ' ' || c = '<' || c = '&' || c = '#' || c = ';')

/-- A semicolon at the start of a text, and what follows it. -/
def takeSemicolon (cs : List Char) : List Char × List Char :=
  match cs with
  | ';' :: rest => ([';'], rest)
  | cs => ([], cs)

/-- The reference that follows an ampersand in an attribute value: its text and the rest. -/
def referenceIn (cs : List Char) : Option (List Char × List Char) :=
  match cs with
  | '#' :: rest =>
    let (digits, isHex) := match rest with
      | c :: more => if c = 'x' || c = 'X' then (more, true) else (rest, false)
      | [] => ([], false)
    let isDigit := fun (c : Char) => if isHex then isHexDigit c else c.isDigit
    let number := digits.takeWhile isDigit
    if number.isEmpty then none
    else
      let value := if isHex then hexValue number else decimalValue number
      some (numberedValue value, (takeSemicolon (digits.drop number.length)).2)
  | cs =>
    let name := (cs.take 32).takeWhile isNameChar
    if name.isEmpty then none
    else
      let (semicolon, rest) := takeSemicolon (cs.drop name.length)
      some (namedValue (name ++ semicolon), rest)

/-- Replace the references in an attribute value, in at most the given number of steps. -/
def replaceReferences : Nat → List Char → List Char
  | 0, cs => cs
  | _ + 1, [] => []
  | n + 1, c :: rest =>
    if c = '&' then
      match referenceIn rest with
      | some (text, rest) => text ++ replaceReferences n rest
      | none => c :: replaceReferences n rest
    else c :: replaceReferences n rest

/-- An attribute value with its references replaced. -/
def attributeValue (cs : List Char) : String :=
  String.ofList (replaceReferences cs.length cs)

end CodeHighlight.Html
