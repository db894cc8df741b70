import CodeHighlight.Failure
import CodeHighlight.Text.Utf8

/-!
# Texts with halves of surrogate pairs

A character reference in a document can name one half of a surrogate pair. Such a half is a code
point but no character: a text that holds one can be compared, cut and joined, but it has no bytes
in UTF-8.
-/

namespace CodeHighlight.Text
open Utf8 (Bytes)

/-- A code point: a character, or a half of a surrogate pair by its distance from the first one. -/
inductive CodePoint where
  | char (c : Char)
  | half (n : Fin 0x800)
  deriving DecidableEq, Repr

/-- The first half of a surrogate pair. -/
def firstHalf : Nat := 0xd800

/-- A text that may hold halves of surrogate pairs. -/
abbrev Wide := List CodePoint

namespace CodePoint

/-- The character, if it is one. -/
def char? : CodePoint → Option Char
  | .char c => some c
  | .half _ => none

/-- The code point is a character. -/
def isChar (p : CodePoint) : Bool := p.char?.isSome

end CodePoint

namespace Wide

/-- A string as a text. -/
@[coe] def ofString (s : String) : Wide := s.toList.map .char

instance : Coe String Wide := ⟨ofString⟩

/-- The characters of a text, unless it holds a half of a pair. -/
def chars? : Wide → Option (List Char)
  | [] => some []
  | .char c :: rest => (chars? rest).map (c :: ·)
  | .half _ :: _ => none

/-- The string that a text is, unless it holds a half of a pair. -/
def toString? (t : Wide) : Option String := t.chars?.map String.ofList

/-- What is said about the code points that have no bytes: one is shown, several are given by their
positions. -/
def encodingMessage (position : Nat) (halves : List CodePoint) : String :=
  (match halves with
    | [.half n] => "'utf-8' codec can't encode character '\\u" ++ Utf8.hex 4 (firstHalf + n)
        ++ "' in position " ++ toString position
    | _ => "'utf-8' codec can't encode characters in position " ++ toString position ++ "-"
        ++ toString (position + halves.length - 1))
    ++ ": surrogates not allowed"

/-- The failure to write a text that holds halves of pairs: it names the first ones. -/
def encodingFailure (t : Wide) : Trace :=
  let rest := t.dropWhile CodePoint.isChar
  .plain .encoding (encodingMessage (t.length - rest.length) (rest.takeWhile (!·.isChar)))

/-- The bytes of a text. -/
def encode (t : Wide) : Except Trace Bytes :=
  match t.toString? with
  | some s => .ok (Utf8.ofString s)
  | none => .error t.encodingFailure

end Wide

end CodeHighlight.Text
