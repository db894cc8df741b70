import CodeHighlight.Markdown.Definitions

/-!
# Links

The parts of a link behind its opening bracket: the text up to the bracket that closes it, and then
the name of a target between brackets, or an address with an optional title between parentheses.
Parentheses nest. A title stands between quotes that are the last thing before the closing
parenthesis; a quote that turns out not to start a title is part of the address.
-/

namespace CodeHighlight.Markdown.Link

/-- The text up to the bracket that closes so many open ones, and the rest. -/
def textUpTo (before : List Atom) (openings : Nat) : List Atom → Option (List Atom × List Atom)
  | [] => none
  | a :: rest =>
    let count :=
      if a.isChar ']' then openings - 1 else if a.isChar '[' then openings + 1 else openings
    if count = 0 then some (before.reverse, rest) else textUpTo (a :: before) count rest

/-- The text behind an opening bracket, and the rest. -/
def text? (atoms : List Atom) : Option (List Atom × List Atom) := textUpTo [] 1 atoms

/-- Each run of blanks as one space. -/
def squeeze (s : String) : String :=
  let rec go (inBlank : Bool) : List Char → List Char
    | [] => []
    | c :: rest =>
      if Text.isBlank c then if inBlank then go true rest else ' ' :: go true rest
      else c :: go false rest
  String.ofList (go false s.toList)

/-- The key of a target that the text of a link names; text with anything but characters in it names
none. -/
def keyIn (name : List Atom) : Option String :=
  if name.all fun a => a.char?.isSome then some (squeeze (Definitions.keyOf name)) else none

/-- The name of a target between brackets, which may follow a blank, and the rest; an empty one
stands for the text of the link. -/
def name? (text atoms : List Atom) : Option (List Atom × List Atom) :=
  let behind := match atoms with
    | a :: rest => if a.isBlank then rest else a :: rest
    | [] => []
  match behind with
  | a :: rest =>
    let name := rest.takeWhile fun b => !b.isChar ']'
    if a.isChar '[' && name.length < rest.length then
      some (if name.isEmpty then text else name, rest.drop (name.length + 1))
    else none
  | [] => none

/-- A title as it is shown: with its blanks as spaces and without quotes around it. -/
def cleanTitle (title : List Atom) : String :=
  let cs := (Atom.textOf (Atom.strip title)).toList
  let isQuoted (q : Char) := cs.head? == some q && cs.getLast? == some q
  let cs := if isQuoted '"' || isQuoted '\x27' then (cs.drop 1).dropLast else cs
  String.ofList (cs.map fun c => if Text.isBlank c then ' ' else c)

/-- The text between quotes, and the rest. -/
def quotedText? (atoms : List Atom) : Option (List Atom × List Atom) :=
  match atoms with
  | a :: rest =>
    match a.char? with
    | some q =>
      if q = '"' || q = '\x27' then
        let inner := rest.takeWhile fun b => !b.isChar q
        if inner.length < rest.length then some (inner, rest.drop (inner.length + 1)) else none
      else none
    | none => none
  | [] => none

/-- What follows an address between angle brackets: an optional title, and the closing
parenthesis. -/
def closing? (atoms : List Atom) : Option (Option (List Atom) × List Atom) :=
  let rest := Atom.stripStart atoms
  let close (title : Option (List Atom)) (atoms : List Atom) :
      Option (Option (List Atom) × List Atom) :=
    match Atom.stripStart atoms with
    | a :: after => if a.isChar ')' then some (title, after) else none
    | [] => none
  match quotedText? rest with
  | some (title, after) => close (some title) after
  | none => close none rest

/-- An address between angle brackets. -/
def angled? (atoms : List Atom) : Option (Target × List Atom) :=
  match atoms with
  | a :: rest =>
    if a.isChar '<' then
      let inner := rest.takeWhile fun b => !(b.isChar '<' || b.isChar '>')
      match rest.drop inner.length with
      | b :: after =>
        if b.isChar '>' then
          (closing? after).map fun (title, after) =>
            (⟨Text.trim (Atom.textOf inner), title.map cleanTitle⟩, after)
        else none
      | [] => none
    else none
  | [] => none

/-- A quote that may delimit a title: its character, the place behind it, and the place behind the
last quote of the same kind that followed. -/
structure Quote where
  mark : Char
  start : Nat
  exit : Option Nat := none

/-- The state of reading an address and a title: the place, the open parentheses, those that were
open before the first quote, the place behind the parenthesis that would close these, the first two
kinds of quotes, and the last atom that is no space. -/
structure Reader where
  index : Nat := 0
  openings : Nat := 1
  backup : Nat := 1
  backupEnd : Nat := 0
  first : Option Quote := none
  second : Option Quote := none
  last : Option Char := none

namespace Reader

/-- A quote of the given kind has been closed right before. -/
def justClosed (r : Reader) (q : Option Quote) : Bool :=
  q.any fun q => q.exit.isSome && r.last == some q.mark

/-- Read an opening parenthesis. -/
def openOne (r : Reader) : Reader :=
  if r.first.isNone then { r with openings := r.openings + 1 }
  else { r with backup := r.backup - 1 }

/-- Read a closing parenthesis. -/
def closeOne (r : Reader) : Reader :=
  if r.justClosed r.first || r.justClosed r.second then { r with openings := 0 }
  else if r.first.isNone then { r with openings := r.openings - 1 }
  else if r.backup = 1 then { r with backup := 0, backupEnd := r.index + 1 }
  else { r with backup := r.backup - 1 }

/-- Read a quote. -/
def quote (r : Reader) (mark : Char) : Reader :=
  let next := r.index + 1
  match r.first with
  | none => { r with first := some { mark, start := next }, backup := r.openings, openings := 1 }
  | some q =>
    if mark = q.mark then { r with first := some { q with exit := some next } }
    else
      match r.second with
      | none => { r with second := some { mark, start := next } }
      | some q => { r with second := some { q with exit := some next } }

/-- Read an atom. -/
def step (r : Reader) (a : Atom) : Reader :=
  let read := match a.char? with
    | some '(' => r.openOne
    | some ')' => r.closeOne
    | some '"' => r.quote '"'
    | some '\x27' => r.quote '\x27'
    | _ => r
  { read with index := r.index + 1 }

/-- The reader when the parenthesis is closed; otherwise the one at the end. -/
def run (r : Reader) : List Atom → Reader
  | [] => r
  | a :: rest =>
    let next := r.step a
    if next.openings = 0 then next
    else run (if a.isChar ' ' then next else { next with last := some (a.char?.getD '\x02') }) rest

end Reader

/-- The part of a text between two places. -/
def between (atoms : List Atom) (start stop : Nat) : List Atom := (atoms.take stop).drop start

/-- An address, with a title if quotes were closed right before the end. -/
def targetOf (atoms : List Atom) (r : Reader) : Target :=
  let titled (q : Option Quote) : Option Target :=
    q.bind fun q => q.exit.bind fun exit =>
      if r.last == some q.mark then
        some ⟨Text.trim (Atom.textOf (atoms.take (q.start - 1))),
          some (cleanTitle (between atoms q.start (exit - 1)))⟩
      else none
  ((titled r.first).or (titled r.second)).getD
    ⟨Text.trim (Atom.textOf (atoms.take (r.index - 1))), none⟩

/-- An address and an optional title between parentheses. -/
def plain? (atoms : List Atom) : Option (Target × List Atom) :=
  let r := Reader.run {} atoms
  if r.openings = 0 then some (targetOf atoms r, atoms.drop r.index)
  else if r.backup = 0 then
    some (⟨Text.trim (Atom.textOf (atoms.take (r.backupEnd - 1))), none⟩, atoms.drop r.backupEnd)
  else none

/-- A target between parentheses, and the rest. -/
def target? (atoms : List Atom) : Option (Target × List Atom) :=
  match atoms with
  | a :: rest =>
    if a.isChar '(' then
      let inner := Atom.stripStart rest
      (angled? inner).or (plain? inner)
    else none
  | [] => none

end CodeHighlight.Markdown.Link
