import CodeHighlight.Markdown.Definitions

/-!
# Abbreviations

Every word of a document that is defined as an abbreviation gets its title. Of several that start at
one place the longest counts. An abbreviation starts and ends where a word does.
-/

namespace CodeHighlight.Markdown.Abbreviation

/-- A word starts or ends between two atoms. -/
def isEdge (before after : Option Atom) : Bool :=
  before.any Atom.isWord != after.any Atom.isWord

/-- The abbreviation at a place, as the element with its title, and the rest. -/
def read? (abbreviations : List (String × String)) (before : Option Atom) (atoms : List Atom) :
    Option (Atom × List Atom) :=
  if isEdge before atoms.head? then
    abbreviations.findSome? fun (name, title) =>
      let cs := name.toList
      let rest := atoms.drop cs.length
      if Atom.startsWith cs atoms && isEdge (atoms.take cs.length).getLast? rest.head? then
        some (.element "abbr" [("title", title)] (cs.map .settled), rest)
      else none
  else none

mutual

/-- Mark the abbreviations inside an atom. -/
def mark (abbreviations : List (String × String)) : Nat → Atom → Atom
  | 0, a => a
  | n + 1, .element tag attributes content =>
    .element tag attributes (markAll abbreviations n none content)
  | _ + 1, a => a

/-- Mark the abbreviations among atoms, given the atom before them, in at most the given number of
steps. -/
def markAll (abbreviations : List (String × String)) :
    Nat → Option Atom → List Atom → List Atom
  | 0, _, atoms => atoms
  | _ + 1, _, [] => []
  | n + 1, before, a :: rest =>
    match read? abbreviations before (a :: rest) with
    | some (element, after) =>
      let taken := (a :: rest).take ((a :: rest).length - after.length)
      element :: markAll abbreviations n taken.getLast? after
    | none => mark abbreviations n a :: markAll abbreviations n (some a) rest

end

mutual

/-- The number of atoms of an atom, itself included. -/
def size : Atom → Nat
  | .element _ _ content => 1 + sizeOfAll content
  | _ => 1

/-- The number of atoms of a document, those inside others included. -/
def sizeOfAll : List Atom → Nat
  | [] => 0
  | a :: rest => size a + sizeOfAll rest

end

/-- Mark the abbreviations of a document. -/
def markDocument (abbreviations : Entries String String) (atoms : List Atom) : List Atom :=
  if abbreviations.isEmpty then atoms
  else
    let longestFirst := abbreviations.mergeSort fun a b => b.1.length ≤ a.1.length
    markAll longestFirst (2 * sizeOfAll atoms + 2) none atoms

end CodeHighlight.Markdown.Abbreviation
