import CodeHighlight.Data.Entries
import CodeHighlight.Data.Key
import CodeHighlight.Grammar
import CodeHighlight.Stack

/-!
# Values

What an option, a descriptor or a loaded package can hold: scalars, lists, mappings, grammars, and
things that are known by their type only.
-/

namespace CodeHighlight
open Text.Utf8 (Bytes)

/-- A value. A `thing` has a type name and the longer name that some messages show. -/
inductive Value where
  | scalar (k : Key)
  | list (items : List Value)
  | tuple (items : List Value)
  | map (entries : List (Key × Value))
  | grammar (g : Grammar)
  | thing (typeName shownType : String)

namespace Value

/-- No value. -/
abbrev null : Value := .scalar .null

/-- A string. -/
abbrev str (s : String) : Value := .scalar (.str s)

/-- A truth value. -/
abbrev bool (b : Bool) : Value := .scalar (.bool b)

/-- An integer. -/
abbrev int (n : Int) : Value := .scalar (.int n)

/-- The name of the type of a value. -/
def typeName : Value → String
  | .scalar k => k.typeName
  | .list _ => "list"
  | .tuple _ => "tuple"
  | .map _ => "dict"
  | .grammar g => g.typeName
  | .thing t _ => t

mutual

/-- A value as a literal. -/
def literal : Value → String
  | .scalar k => k.literal
  | .list items => "[" ++ literals items ++ "]"
  | .tuple items =>
    match items with
    | [x] => "(" ++ literal x ++ ",)"
    | items => "(" ++ literals items ++ ")"
  | .map entries => "\x7b" ++ entryLiterals entries ++ "\x7d"
  | .grammar g => g.literal?.getD ("<" ++ g.typeName ++ ">")
  | .thing _ shown => "<" ++ shown ++ ">"

/-- The literals of items, separated by commas. -/
def literals : List Value → String
  | [] => ""
  | [x] => literal x
  | x :: y :: rest => literal x ++ ", " ++ literals (y :: rest)

/-- The literals of keys and values, separated by commas. -/
def entryLiterals : List (Key × Value) → String
  | [] => ""
  | [(k, v)] => k.literal ++ ": " ++ literal v
  | (k, v) :: e :: rest => k.literal ++ ": " ++ literal v ++ ", " ++ entryLiterals (e :: rest)

end

/-- The failure to write out a value that is nested too deep. -/
def nestedTooDeep : Trace := Stack.exceeded " while getting the repr of an object"

mutual

/-- Fails for a value that cannot be written out. It takes a level of the stack to go into a list or
a mapping. -/
def writable (levels : Nat) : Value → Except Trace Unit
  | .scalar k => k.writable
  | .list items | .tuple items =>
    if levels = 0 then .error nestedTooDeep else areWritable (levels - 1) items
  | .map entries =>
    if levels = 0 then .error nestedTooDeep else entriesWritable (levels - 1) entries
  | .grammar _ | .thing _ _ => .ok ()

/-- Fails for items that cannot be written out. -/
def areWritable (levels : Nat) : List Value → Except Trace Unit
  | [] => .ok ()
  | v :: rest => do
    writable levels v
    areWritable levels rest

/-- Fails for keys and values that cannot be written out. -/
def entriesWritable (levels : Nat) : List (Key × Value) → Except Trace Unit
  | [] => .ok ()
  | (k, v) :: rest => do
    k.writable
    writable levels v
    entriesWritable levels rest

end

/-- A value as text: a string stands for itself. -/
def text : Value → String
  | .scalar k => k.text
  | v => v.literal

/-- A string. -/
def str? : Value → Option String
  | .scalar (.str s) => some s
  | _ => none

/-- A value that counts as present: not nothing, false, zero or empty. -/
def isTruthy : Value → Bool
  | .scalar .null => false
  | .scalar (.bool b) => b
  | .scalar (.int n) => n != 0
  | .scalar (.float bits) => bits != 0 && bits != 0x8000000000000000
  | .scalar (.moment _) => true
  | .scalar (.str s) => !s.isEmpty
  | .scalar (.bytes bs) => !bs.isEmpty
  | .list items | .tuple items => !items.isEmpty
  | .map entries => !entries.isEmpty
  | .grammar _ | .thing _ _ => true

/-- Nothing. -/
def isNull : Value → Bool
  | .scalar .null => true
  | _ => false

/-- The items of a list, a tuple or a mapping; of a mapping these are its keys. -/
def items? : Value → Option (List Value)
  | .list items | .tuple items => some items
  | .map entries => some (entries.map fun e => .scalar e.1)
  | _ => none

/-- The items that are strings. -/
def strings (items : List Value) : List String := items.filterMap str?

/-- The class names in a value: the words of a text, or the items that are strings. -/
def classNames : Value → List String
  | .scalar (.str s) => Text.words s
  | v => strings (v.items?.getD [])

/-- A value as the text of an attribute: a text, or the items that are strings joined by spaces. -/
def attributeText (v : Value) : Option String :=
  match v with
  | .scalar (.str s) => some s
  | v =>
    match strings (v.items?.getD []) with
    | [] => none
    | items => some (" ".intercalate items)

/-- A value as a grammar; what is none can do nothing. -/
def toGrammar : Value → Grammar
  | .grammar g => g
  | .thing t shown => .inert 0 t shown
  | v => .inert 0 v.typeName v.typeName

end Value

end CodeHighlight
