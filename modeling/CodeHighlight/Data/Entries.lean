/-!
# Entries

Mappings as lists of pairs, in the order in which their keys were first written. Writing a key that
is present replaces its value and keeps its position and its first spelling.
-/

namespace CodeHighlight

/-- Pairs of keys and values in order. -/
abbrev Entries (κ : Type) (α : Type) := List (κ × α)

namespace Entries
variable {κ α β : Type} [BEq κ]

/-- The value of a key. -/
def get? (es : Entries κ α) (k : κ) : Option α := (es.find? fun e => e.1 == k).map Prod.snd

/-- The key is present. -/
def has (es : Entries κ α) (k : κ) : Bool := es.any fun e => e.1 == k

/-- The keys in order. -/
def keys (es : Entries κ α) : List κ := es.map Prod.fst

/-- Write a key. -/
def insert (es : Entries κ α) (k : κ) (v : α) : Entries κ α :=
  match es with
  | [] => [(k, v)]
  | (k', v') :: rest => if k' == k then (k', v) :: rest else (k', v') :: insert rest k v

/-- Write a key unless it is present. -/
def insertNew (es : Entries κ α) (k : κ) (v : α) : Entries κ α :=
  if has es k then es else insert es k v

/-- Write all pairs of a list in order. -/
def update (es : Entries κ α) (new : List (κ × α)) : Entries κ α :=
  new.foldl (fun es e => insert es e.1 e.2) es

/-- The mapping written by a list of pairs. -/
def ofList (pairs : List (κ × α)) : Entries κ α := update [] pairs

/-- Remove a key. -/
def erase (es : Entries κ α) (k : κ) : Entries κ α := es.filter fun e => !(e.1 == k)

/-- The same keys with other values. -/
def mapValues (f : α → β) (es : Entries κ α) : Entries κ β := es.map fun e => (e.1, f e.2)

end Entries

end CodeHighlight
