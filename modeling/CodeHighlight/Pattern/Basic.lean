import CodeHighlight.Text.Alphanumeric
import CodeHighlight.Text.Blank

/-!
# Search patterns

Patterns over characters, and whether one matches somewhere in a text. Only the fact that it
matches is asked for, so a pattern is read as a relation between places of the text: `ends p a`
lists the places at which a match of `p` that starts at `a` can end. `search` holds when some place
has such an end.
-/

namespace CodeHighlight

/-- A class of characters with a name. -/
inductive CharClass where
  | digit
  | word
  | blank
  deriving DecidableEq, Repr

/-- A character belongs to the class. -/
def CharClass.holds : CharClass → Char → Bool
  | .digit, c => Text.isDecimalDigit c
  | .word, c => Text.isWordChar c
  | .blank, c => Text.isBlank c

/-- A member of a set of characters: an interval of code points, or a class or its complement. -/
inductive SetItem where
  | range (low high : Nat)
  | named (c : CharClass) (negated : Bool)
  deriving DecidableEq, Repr

/-- A character belongs to the member. -/
def SetItem.holds : SetItem → Char → Bool
  | .range low high, c => low ≤ c.toNat && c.toNat ≤ high
  | .named k negated, c => k.holds c != negated

/-- A condition on a place. -/
inductive Anchor where
  | start
  | lastLineEnd
  | stop
  | wordEdge
  | noWordEdge
  deriving DecidableEq, Repr

/-- A pattern. A repetition has a least and, unless it is open, a greatest count. -/
inductive Pattern where
  | empty
  | code (n : Nat)
  | any
  | set (negated : Bool) (items : List SetItem)
  | anchor (a : Anchor)
  | seq (p q : Pattern)
  | either (p q : Pattern)
  | repeated (p : Pattern) (least : Nat) (greatest : Option Nat)
  deriving DecidableEq, Repr

namespace Pattern

/-- A place in a text: its index, the character before it and the text after it. -/
structure Place where
  index : Nat
  before : Option Char
  rest : List Char

/-- The place after one more character. -/
def Place.next? (a : Place) : Option (Char × Place) :=
  match a.rest with
  | [] => none
  | c :: rest => some (c, ⟨a.index + 1, some c, rest⟩)

/-- One of the characters around the place is a word character and the other is not. -/
def Place.isWordEdge (a : Place) : Bool :=
  let left := a.before.any Text.isWordChar
  let right := a.rest.head?.any Text.isWordChar
  left != right

/-- The condition holds at the place. -/
def Anchor.holds (a : Place) : Anchor → Bool
  | .start => a.index == 0
  | .lastLineEnd => a.rest.isEmpty || a.rest == ['\n']
  | .stop => a.rest.isEmpty
  | .wordEdge => a.isWordEdge
  | .noWordEdge => !a.isWordEdge

/-- The place after a character that passes a test. -/
def one (test : Char → Bool) (a : Place) : List Place :=
  match a.next? with
  | some (c, b) => if test c then [b] else []
  | none => []

/-- Places without those whose index occurred before. -/
def distinct : List Place → List Place
  | [] => []
  | a :: rest => a :: (distinct rest).filter fun b => b.index != a.index

/-- The places that one more step reaches from some of the given ones. -/
def spread (step : Place → List Place) (places : List Place) : List Place :=
  distinct (places.flatMap step)

/-- The places reached by exactly `n` steps. -/
def exactly (step : Place → List Place) : Nat → List Place → List Place
  | 0, places => places
  | n + 1, places => if places.isEmpty then [] else exactly step n (spread step places)

/-- The places reached by at most `n` steps, `found` being reached already. -/
def atMost (step : Place → List Place) : Nat → List Place → List Place → List Place
  | 0, found, _ => found
  | n + 1, found, latest =>
    let fresh := (spread step latest).filter fun b => found.all fun a => a.index != b.index
    if fresh.isEmpty then found else atMost step n (found ++ fresh) fresh

/-- The places where a match that starts at a place can end. More steps than characters reach no
further places, so the counts of a repetition are cut to one more than what is left of the text. -/
def ends : Pattern → Place → List Place
  | .empty, a => [a]
  | .code n, a => one (fun c => c.toNat == n) a
  | .any, a => one (fun c => c != '\n') a
  | .set negated items, a => one (fun c => (items.any fun i => i.holds c) != negated) a
  | .anchor k, a => if Anchor.holds a k then [a] else []
  | .seq p q, a => distinct ((ends p a).flatMap (ends q))
  | .either p q, a => distinct (ends p a ++ ends q a)
  | .repeated p least greatest, a =>
    let bound := a.rest.length + 1
    let first := exactly (ends p) (min least bound) [a]
    let more := match greatest with
      | some g => min (g - least) bound
      | none => bound
    atMost (ends p) more first first

/-- The places of a text from one on. -/
def Place.onwards (index : Nat) (before : Option Char) : List Char → List Place
  | [] => [⟨index, before, []⟩]
  | c :: rest => ⟨index, before, c :: rest⟩ :: Place.onwards (index + 1) (some c) rest

/-- The pattern matches somewhere in the text. -/
def search (p : Pattern) (text : String) : Bool :=
  (Place.onwards 0 none text.toList).any fun a => !(ends p a).isEmpty

end Pattern

end CodeHighlight
