import CodeHighlight.Data.Value
import CodeHighlight.Registry
import CodeHighlight.Text.Lowercase

/-!
# Lexer grammars

A lexer gives a flat list of tokens. The grammar around it has a tree of two levels: a root for the
whole source and one child for each token. Tokens are taken as long as their texts continue the
source; from the first that does not, the rest of the source stays without nodes.

A token type is a path of components. Its name is the path in lower case, joined by dots, and is
both the label and the scope of the node. Types in the family of plain text are anonymous and have
no scope.
-/

namespace CodeHighlight
open Text.Utf8 (Bytes)

/-- A token type: a path of components. -/
abbrev TokenType := List String

namespace TokenType

/-- Read a dotted path; a leading `Token` stands for the root. -/
def ofText (s : String) : TokenType :=
  if s.isEmpty then []
  else
    match (Text.cutAt '.' s.toList).map String.ofList with
    | "Token" :: rest => rest
    | parts => parts

/-- The components in lower case, joined by dots. -/
def name (t : TokenType) : String := ".".intercalate (List.map Text.lower t)

/-- Plain text and everything below it. -/
def isPlain (t : TokenType) : Bool := List.head? t == some "Text"

end TokenType

/-- A token: its type and its text. -/
abbrev Token := TokenType × String

namespace Lexing

/-- The nodes of tokens from a byte position on, as long as the tokens continue the text. -/
def nodes (position : Nat) (text : List Char) : List Token → List Node
  | [] => []
  | (type, value) :: rest =>
    let cs := value.toList
    if cs.isEmpty then nodes position text rest
    else if cs.isPrefixOf text then
      let stop := position + (Text.Utf8.encode cs).length
      { label := type.name, named := !type.isPlain, start := position, stop := stop }
        :: nodes stop (text.drop cs.length) rest
    else []

/-- The tree of a text with its tokens. -/
def tree (text : String) (tokens : List Token) : Node :=
  { label := "source", start := 0, stop := (Text.Utf8.ofString text).length,
    children := nodes 0 text.toList tokens }

/-- The scope of the root for a lexer's alias. -/
def rootScope (lexerName : String) : String := "source." ++ lexerName

/-- The scopes of a node: the root has the scope of the language, a named node its label. -/
def resolver (lexerName : String) : Resolver := fun c _ =>
  .ok (match c.parent? with
    | none => [rootScope lexerName]
    | some _ => if c.node.named then [c.node.label] else [])

/-- Cut the bytes of a source with a lexer. -/
def parse (lexer : String → List Token) (source : Bytes) : Except Trace (Option Node) :=
  match Text.Utf8.decode source with
  | .ok text => .ok (some (tree text (lexer text)))
  | .error e => .error (.plain .decoding e.message)

/-- The grammar around the lexer with an alias. -/
def grammar (serial : Nat) (lexerName : String) (lexer : String → List Token) : Grammar where
  serial := serial
  typeName := "PygmentsGrammar"
  form := .lexer lexerName
  lexerName := some lexerName
  parse := parse lexer
  resolver := .ok (resolver lexerName)

/-- The options that a lexer is made with: neither line breaks at the ends are stripped nor is one
added, unless the given options say otherwise. They are listed by name. -/
def options (given : Entries String Value) : Entries String Value :=
  (Entries.update [("stripnl", .bool false), ("ensurenl", .bool false)] given).mergeSort
    fun a b => a.1 ≤ b.1

/-- The grammar around a lexer whose tokens are not known. -/
def blankGrammar (serial : Nat) (lexerName : String) : Grammar :=
  grammar serial lexerName fun _ => []

/-- Add the grammar of a lexer under those of its aliases that are wanted and not taken. The
grammar has the first alias. -/
def addLexer (wanted : Option (List String)) (r : Registry) (aliases : List String) : Registry :=
  match aliases with
  | [] => r
  | first :: _ =>
    let selected := aliases.filter fun a =>
      match wanted with
      | some names => names.contains a
      | none => true
    let g := blankGrammar r.length first
    selected.foldl (fun r a => Entries.insertNew r (.str a) g) r

/-- The grammars of lexers, given by their aliases, under the wanted aliases. -/
def catalogue (lexers : List (List String)) (wanted : Option (List String)) : Registry :=
  lexers.foldl (addLexer wanted) []

end Lexing

end CodeHighlight
