import CodeHighlight.Failure
import CodeHighlight.Text.Lowercase

/-!
# Markup of messages

Some messages are given with tags between square brackets that set a style. A tag starts with a
small letter, `#`, `@` or a slash. One that starts with a slash ends the style that it names, or the
latest one when it names none; it is a failure when there is no such style. Backslashes before a tag
stand for half as many, and an odd one takes the tag literally; a single backslash before any other
opening bracket is dropped.

Styles do not show on a stream without colours, so that only the plain text is kept.
-/

namespace CodeHighlight.CommandLine.Markup

/-- A piece of a message: plain text, or what stands between the brackets of a tag, with the place
of the tag. -/
inductive Piece where
  | plain (text : List Char)
  | tag (place : Nat) (body : List Char)

/-- A character that a tag starts with. -/
def startsTag (c : Char) : Bool :=
  ('a'.toNat ≤ c.toNat && c.toNat ≤ 'z'.toNat) || c = '#' || c = '/' || c = '@'

/-- A character that is no bracket. -/
def inTag (c : Char) : Bool := c != '[' && c != ']'

/-- What stands between the brackets of a tag and what follows it, given what follows the opening
bracket. -/
def readTag? (cs : List Char) : Option (List Char × List Char) :=
  match cs.takeWhile inTag, cs.dropWhile inTag with
  | c :: body, ']' :: rest => if startsTag c then some (c :: body, rest) else none
  | _, _ => none

/-- The pieces of a message that starts at a place; at most the given number of steps. -/
def piecesFrom : Nat → Nat → List Char → List Piece
  | 0, _, _ => []
  | n + 1, place, cs =>
    let slashes := cs.takeWhile (· = '\\')
    match cs.dropWhile (· = '\\') with
    | [] => [.plain slashes]
    | '[' :: rest =>
      match readTag? rest with
      | some (body, after) =>
        let here := place + slashes.length
        let piece := if slashes.length % 2 = 0 then Piece.tag here body
          else .plain ('[' :: (body ++ [']']))
        .plain (slashes.take (slashes.length / 2)) :: piece ::
          piecesFrom n (here + body.length + 2) after
      | none => .plain (slashes.dropLast ++ ['[']) :: piecesFrom n (place + slashes.length + 1) rest
    | c :: rest => .plain (slashes ++ [c]) :: piecesFrom n (place + slashes.length + 1) rest

/-- The pieces of a message. -/
def pieces (cs : List Char) : List Piece := piecesFrom (cs.length + 1) 0 cs

/-- Short names of styles with their full names. -/
def styleNames : List (String × String) :=
  [("b", "bold"), ("d", "dim"), ("i", "italic"), ("u", "underline"), ("uu", "underline2"),
    ("r", "reverse"), ("c", "conceal"), ("s", "strike"), ("o", "overline")]

/-- The full name of a style. -/
def styleName (name : List Char) : String :=
  let name := Text.lower (Text.trim (String.ofList name))
  (styleNames.lookup name).getD name

/-- The failure of a tag that ends no style. -/
def refuse {α : Type} (tag : List Char) (place : Nat) (reason : String) : Except Trace α :=
  .error (.plain (.system "MarkupError")
    ("closing tag '[" ++ String.ofList tag ++ "]' at position " ++ toString place ++ " " ++ reason))

/-- The styles behind a closing tag with the given name, the latest first. -/
def close (styles : List String) (place : Nat) (body name : List Char) :
    Except Trace (List String) :=
  if Text.isAllBlank name then
    match styles with
    | _ :: rest => .ok rest
    | [] => refuse ['/'] place "has nothing to close"
  else if styles.contains (styleName name) then .ok (styles.erase (styleName name))
  else refuse body place "doesn't match any open tag"

/-- The plain text of pieces while styles are set, the latest first. -/
def textOf : List String → List Piece → Except Trace (List Char)
  | _, [] => .ok []
  | styles, .plain text :: rest => (textOf styles rest).map (text ++ ·)
  | styles, .tag place body :: rest =>
    match body.takeWhile (· != '=') with
    | '/' :: name =>
      match close styles place body name with
      | .ok styles => textOf styles rest
      | .error t => .error t
    | name => textOf (styleName name :: styles) rest

/-- The plain text of a message. -/
def read (message : String) : Except Trace String :=
  (textOf [] (pieces message.toList)).map String.ofList

end CodeHighlight.CommandLine.Markup
