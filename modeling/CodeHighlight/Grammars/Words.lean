import CodeHighlight.Scope.Table

/-!
# Word grammar

A grammar for any language: it cuts a source into identifiers, numbers and single marks, and puts
one node for each of them below a root. A few words are keywords and become anonymous nodes, as the
marks do.
-/

namespace CodeHighlight.Words
open Text.Utf8 (Bytes)

/-- A word or a mark, and whether it is an identifier, a number or neither. -/
inductive Kind where
  | identifier
  | number
  | mark
  deriving DecidableEq, Repr

/-- A character that starts an identifier. -/
def isStart (c : Char) : Bool := c.isAlpha || c = '_' || 0x80 ≤ c.toNat

/-- A character inside an identifier. -/
def isInside (c : Char) : Bool := isStart c || c.isDigit

/-- A character between words. -/
def isGap (c : Char) : Bool := c = ' ' || (9 ≤ c.toNat && c.toNat ≤ 13)

/-- The words of a text that starts at a byte position: kind, text, position. -/
def cut (position : Nat) : List Char → List (Kind × List Char × Nat)
  | [] => []
  | c :: rest =>
    let size (cs : List Char) : Nat := (Text.Utf8.encode cs).length
    if isGap c then cut (position + 1) rest
    else if isStart c then
      let word := c :: rest.takeWhile isInside
      (.identifier, word, position) :: cut (position + size word) (rest.dropWhile isInside)
    else if c.isDigit then
      let word := c :: rest.takeWhile Char.isDigit
      (.number, word, position) :: cut (position + size word) (rest.dropWhile Char.isDigit)
    else (.mark, [c], position) :: cut (position + 1) rest
termination_by cs => cs.length
decreasing_by
  all_goals simp only [List.length_cons]
  · omega
  · have := (List.dropWhile_sublist (p := isInside) (l := rest)).length_le; omega
  · have := (List.dropWhile_sublist (p := Char.isDigit) (l := rest)).length_le; omega
  · omega

/-- The identifiers that are keywords. -/
def keywords : List String := ["let", "const", "return"]

/-- The node of a word. -/
def node (word : Kind × List Char × Nat) : Node :=
  let (kind, cs, position) := word
  let text := String.ofList cs
  let stop : Int := position + (Text.Utf8.encode cs).length
  match kind with
  | .identifier =>
    if keywords.contains text then { label := text, named := false, start := position, stop }
    else { label := "identifier", start := position, stop }
  | .number => { label := "number", start := position, stop }
  | .mark => { label := text, named := false, start := position, stop }

/-- The tree of a text. -/
def tree (text : String) : Node :=
  { label := "program", start := 0, stop := (Text.Utf8.ofString text).length,
    children := (cut 0 text.toList).map node }

/-- Cut the bytes of a source into words. -/
def parse (source : Bytes) : Except Trace (Option Node) :=
  .ok (some (tree (Text.Utf8.decodeLossy source)))

/-- The scopes of words when no table is given. -/
def table : Entries Key Value :=
  [ (.str "program", .str "source.fake"),
    (.str "identifier", .str "variable"),
    (.str "number", .str "constant.numeric"),
    (.str "\"let\", \"const\"", .str "storage.type"),
    (.str "\"return\"", .str "keyword.control"),
    (.str "\"=\"", .str "keyword.operator.assignment"),
    (.str "\";\"", .str "punctuation.terminator") ]

end CodeHighlight.Words
