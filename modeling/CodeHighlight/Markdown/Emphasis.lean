import CodeHighlight.Markdown.Atom

/-!
# Emphasis

Text between asterisks or underscores: one mark for emphasis, two for strong emphasis, three for
both. Of the five forms the first that reads at a mark counts, and the text inside is read for the
forms after it. Underscores inside a word are no marks.
-/

namespace CodeHighlight.Markdown.Emphasis

/-- The forms of emphasis: both with emphasis ending first, both with strong emphasis ending first,
emphasis at the end of strong emphasis, strong emphasis, and emphasis. -/
inductive Form where
  | emphasisFirst
  | strongFirst
  | emphasisLast
  | strong
  | emphasis
  deriving DecidableEq, Repr

/-- The forms in order. -/
def forms : List Form := [.emphasisFirst, .strongFirst, .emphasisLast, .strong, .emphasis]

/-- The texts inside a form, and what follows it. -/
structure Match where
  first : List Atom
  second : List Atom := []
  after : List Atom

/-- So many marks stand at the start. -/
def marked (mark : Char) (n : Nat) (atoms : List Atom) : Bool :=
  Atom.startsWith (List.replicate n mark) atoms

/-- Cut a text at the first place where a test holds of the atom before it and the rest. -/
def cut (test : Option Atom → List Atom → Bool) (before : List Atom) :
    List Atom → Option (List Atom × List Atom)
  | [] => if test before.head? [] then some (before.reverse, []) else none
  | a :: rest =>
    if test before.head? (a :: rest) then some (before.reverse, a :: rest)
    else cut test (a :: before) rest

/-- Cut a text behind its first atom or later. -/
def cutInside (test : Option Atom → List Atom → Bool) :
    List Atom → Option (List Atom × List Atom)
  | [] => none
  | a :: rest => cut test [a] rest

/-- Two texts with marks around: three at the start, and so many after each. -/
def nested (mark : Char) (inner outer : Nat) (atoms : List Atom) : Option Match :=
  if marked mark 3 atoms then do
    let (first, rest) ← cutInside (fun _ => marked mark inner) (atoms.drop 3)
    let (second, rest) ← cut (fun _ => marked mark outer) [] (rest.drop inner)
    pure ⟨first, second, rest.drop outer⟩
  else none

/-- A word stands before a place. -/
def afterWord (before : Option Atom) : Bool := before.any Atom.isWord

/-- A word starts at a place. -/
def beforeWord (atoms : List Atom) : Bool := atoms.head?.any Atom.isWord

/-- A form between asterisks. -/
def withAsterisks (atoms : List Atom) : Form → Option Match
  | .emphasisFirst => nested '*' 1 2 atoms
  | .strongFirst => nested '*' 2 1 atoms
  | .emphasisLast =>
    if marked '*' 2 atoms && !marked '*' 3 atoms then do
      let (first, rest) ← cutInside (fun _ => marked '*' 1) (atoms.drop 2)
      if marked '*' 2 rest then none
      else
        let (second, rest) ← cutInside (fun _ => marked '*' 3) (rest.drop 1)
        pure ⟨first, second, rest.drop 3⟩
    else none
  | .strong =>
    if marked '*' 2 atoms then
      (cutInside (fun _ => marked '*' 2) (atoms.drop 2)).map fun (inner, rest) =>
        { first := inner, after := rest.drop 2 }
    else none
  | .emphasis =>
    if marked '*' 1 atoms && !marked '*' 2 atoms then
      (cutInside (fun _ => marked '*' 1) (atoms.drop 1)).map fun (inner, rest) =>
        { first := inner, after := rest.drop 1 }
    else none

/-- A text between so many underscores that are no part of words. -/
def smart (before : Option Atom) (n : Nat) (atoms : List Atom) : Option Match :=
  if marked '_' n atoms && !afterWord before && !marked '_' 1 (atoms.drop n) then
    let closes := fun (prev : Option Atom) (rest : List Atom) =>
      marked '_' n rest && !prev.any (Atom.isChar '_') && !beforeWord (rest.drop n)
    (cutInside closes (atoms.drop n)).map fun (inner, rest) =>
      { first := inner, after := rest.drop n }
  else none

/-- A form between underscores, given the atom before them. -/
def withUnderscores (before : Option Atom) (atoms : List Atom) : Form → Option Match
  | .emphasisFirst => nested '_' 1 2 atoms
  | .strongFirst => nested '_' 2 1 atoms
  | .emphasisLast =>
    if marked '_' 2 atoms && !marked '_' 3 atoms && !afterWord before then do
      let opens := fun (prev : Option Atom) (rest : List Atom) =>
        marked '_' 1 rest && !marked '_' 2 rest && !afterWord prev
      let (first, rest) ← cutInside opens (atoms.drop 2)
      let closes := fun (_ : Option Atom) (rest : List Atom) =>
        marked '_' 3 rest && !beforeWord (rest.drop 3)
      let (second, rest) ← cutInside closes (rest.drop 1)
      pure ⟨first, second, rest.drop 3⟩
    else none
  | .strong => smart before 2 atoms
  | .emphasis => smart before 1 atoms

/-- A form at a place, given its mark and the atom before it. -/
def match? (mark : Char) (before : Option Atom) (atoms : List Atom) (form : Form) : Option Match :=
  if mark = '*' then withAsterisks atoms form else withUnderscores before atoms form

/-- The element of a form, given how the texts inside are read. -/
def build (read : List Atom → List Atom) (m : Match) : Form → Atom
  | .emphasisFirst => .element "strong" [] (.element "em" [] (read m.first) :: read m.second)
  | .strongFirst => .element "em" [] (.element "strong" [] (read m.first) :: read m.second)
  | .emphasisLast => .element "strong" [] (read m.first ++ [.element "em" [] (read m.second)])
  | .strong => .element "strong" [] (read m.first)
  | .emphasis => .element "em" [] (read m.first)

/-- The forms after one. -/
def formsAfter (form : Form) : List Form := (forms.dropWhile (· != form)).drop 1

/-- Read forms in order, each at the place behind the one before it: their elements, the atom before
the place that is reached, and the rest. -/
def readForms (read : Form → List Atom → List Atom) (mark : Char) (before : Option Atom)
    (atoms : List Atom) : List Form → List Atom × Option Atom × List Atom
  | [] => ([], before, atoms)
  | form :: rest =>
    match match? mark before atoms form with
    | some m =>
      let (more, before, left) := readForms read mark (some (.char mark)) m.after rest
      (build (read form) m form :: more, before, left)
    | none => readForms read mark before atoms rest

/-- Read a text inside a form for the given other forms, in at most the given number of steps. -/
def readInside (mark : Char) : Nat → List Form → Option Atom → List Atom → List Atom
  | 0, _, _, atoms => atoms
  | _ + 1, _, _, [] => []
  | n + 1, forms, before, a :: rest =>
    if a.isChar mark then
      let read := fun form inner => readInside mark n (formsAfter form) none inner
      match readForms read mark before (a :: rest) forms with
      | ([], _, _) => a :: readInside mark n forms (some a) rest
      | (elements, before, left) => elements ++ readInside mark n forms before left
    else a :: readInside mark n forms (some a) rest

/-- Emphasis at a mark, given the atom before it: its element and the rest. -/
def read? (mark : Char) (before : Option Atom) (atoms : List Atom) : Option (Atom × List Atom) :=
  forms.findSome? fun form =>
    (match? mark before atoms form).map fun m =>
      (build (readInside mark atoms.length (formsAfter form) none) m form, m.after)

end CodeHighlight.Markdown.Emphasis
