import CodeHighlight.Data.Entries
import CodeHighlight.Markdown.Lines
import CodeHighlight.Markdown.Writer

/-!
# Fenced code

Code between two lines of three or more backticks or tildes. The opening line can name the language,
or hold attributes in braces: words that start with a dot are classes, the first of which names the
language, a word that starts with a number sign is an identifier, and the others are attributes of
their own. A fence that is not closed is no fence.
-/

namespace CodeHighlight.Markdown

/-- The opening line of fenced code. -/
structure Fence where
  mark : List Char
  language : String := ""
  id : String := ""
  classes : List String := []
  attributes : Entries String String := []

namespace Fence

/-- A character of the name of a language. -/
def isLanguageChar (c : Char) : Bool :=
  Text.isWordChar c || c = '#' || c = '.' || c = '+' || c = '-'

/-- A character of a bare word between braces. -/
def isWordPart (c : Char) : Bool := c != ' ' && c != '=' && c != '\x7d'

/-- A value after an equals sign: between quotes, or a bare word. -/
def readValue (cs : List Char) : Option (List Char × List Char) :=
  let bare := cs.takeWhile isWordPart
  let quoted (q : Char) (inner : List Char) : Option (List Char × List Char) :=
    if inner.contains q then some (inner.takeWhile (· != q), (inner.dropWhile (· != q)).drop 1)
    else if bare.isEmpty then none
    else some (bare, cs.drop bare.length)
  match cs with
  | '"' :: inner => quoted '"' inner
  | '\x27' :: inner => quoted '\x27' inner
  | cs => if bare.isEmpty then none else some (bare, cs.drop bare.length)

/-- A word as a name with a value: a class, an identifier, or an attribute that is its own value. -/
def wordPair (word : List Char) : String × String :=
  match word with
  | '.' :: rest => (".", String.ofList rest)
  | '#' :: rest => ("id", String.ofList rest)
  | word => (String.ofList word, String.ofList word)

/-- The names with their values between braces, in at most the given number of steps; what cannot be
read comes last. -/
def readPairs : Nat → List Char → List (String × String) × List Char
  | 0, cs => ([], cs)
  | n + 1, cs =>
    match cs with
    | [] => ([], [])
    | ' ' :: rest => readPairs n rest
    | cs =>
      let word := cs.takeWhile isWordPart
      let afterWord := cs.drop word.length
      if word.isEmpty then ([], cs)
      else
        let value := match afterWord with
          | '=' :: rest => readValue rest
          | _ => none
        match value with
        | some (value, rest) =>
          let (pairs, left) := readPairs n rest
          ((String.ofList word, String.ofList value) :: pairs, left)
        | none =>
          let (pairs, left) := readPairs n afterWord
          (wordPair word :: pairs, left)

/-- Add a pair to an opening line. -/
def addPair (f : Fence) (pair : String × String) : Fence :=
  if pair.1 = "id" then { f with id := pair.2 }
  else if pair.1 = "." then { f with classes := f.classes ++ [pair.2] }
  else { f with attributes := Entries.insert f.attributes pair.1 pair.2 }

/-- The opening line with attributes in braces. -/
def ofBraces (mark inner : List Char) : Option Fence :=
  let (pairs, left) := readPairs inner.length inner
  if left.contains '\x7d' then none
  else
    let f := pairs.foldl addPair { mark }
    match f.classes with
    | [] => some f
    | first :: rest => some { f with language := first, classes := rest }

/-- The marks at the start of a line, if there are enough of them. -/
def markOf (line : List Char) : List Char :=
  let run (c : Char) := line.takeWhile (· = c)
  if 3 ≤ (run '~').length then run '~' else if 3 ≤ (run '\x60').length then run '\x60' else []

/-- A line as the opening line of fenced code. -/
def ofLine? (line : List Char) : Option Fence :=
  let mark := markOf line
  if mark.isEmpty then none
  else
    let rest := (line.drop mark.length).dropWhile (· = ' ')
    match rest, rest.getLast? with
    | '\x7b' :: inner, some '\x7d' => ofBraces mark inner.dropLast
    | rest, _ =>
      let rest := if rest.head? = some '.' then rest.drop 1 else rest
      let name := rest.takeWhile isLanguageChar
      if (rest.drop name.length).all (· = ' ') then
        some { mark, language := String.ofList name }
      else none

/-- A line that closes the code. -/
def closes (f : Fence) (line : List Char) : Bool :=
  f.mark.isPrefixOf line && (line.drop f.mark.length).all (· = ' ')

/-- An attribute as text, unless its value is empty. -/
def attributeText (name value : String) : String :=
  if value.isEmpty then "" else " " ++ name ++ "=\"" ++ Atom.escapeValue value.toList ++ "\""

/-- A character of code. -/
def escapeCode (c : Char) : String := if c = '"' then "&quot;" else Html.escapeChar c

/-- The code between two lines as HTML. -/
def toHtml (f : Fence) (code : List (List Char)) : String :=
  let language := if f.language.isEmpty then "" else "language-" ++ f.language
  let pairs := f.attributes.map fun a =>
    " " ++ a.1 ++ "=\"" ++ Atom.escapeValue a.2.toList ++ "\""
  "<pre" ++ attributeText "id" f.id ++ attributeText "class" (" ".intercalate f.classes) ++ "><code"
    ++ attributeText "class" language ++ String.join pairs ++ ">"
    ++ String.join (code.map fun line => String.join (line.map escapeCode) ++ "\n")
    ++ "</code></pre>"

/-- Replace fenced code by finished HTML that stands between empty lines, in at most the given
number of steps. -/
def replaceAll : Nat → List (List Char) → List (List Atom)
  | 0, lines => lines.map Atom.ofChars
  | _ + 1, [] => []
  | n + 1, line :: rest =>
    let kept := Atom.ofChars line :: replaceAll n rest
    match ofLine? line with
    | none => kept
    | some f =>
      match rest.dropWhile fun l => !f.closes l with
      | [] => kept
      | _ :: after =>
        let code := rest.takeWhile fun l => !f.closes l
        [] :: [.html (f.toHtml code)] :: [] :: replaceAll n after

end Fence

end CodeHighlight.Markdown
