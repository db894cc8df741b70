import CodeHighlight.Yaml.Value

/-!
# Front matter

A document may start with a block of YAML between two lines of its own, the first `---` and the
second `---` or `...`. `FrontMatter.split` cuts it off. The lines behind it are joined by line
feeds.
-/

namespace CodeHighlight

/-- What stands in front of a document, and the document itself. -/
structure FrontMatter where
  data : Entries Key Value := []
  body : String

namespace FrontMatter

/-- A line that opens front matter. -/
def opens (line : List Char) : Bool := Text.strip line = "---".toList

/-- A line that closes front matter. -/
def closes (line : List Char) : Bool :=
  Text.strip line = "---".toList || Text.strip line = "...".toList

/-- The lines of front matter and the lines behind it, if the text has both marks. -/
def cut (source : String) : Option (List (List Char) × List (List Char)) :=
  match Text.lines (source.toList.dropWhile (· = '\ufeff')) with
  | [] => none
  | first :: rest =>
    if opens first then
      match rest.dropWhile fun line => !closes line with
      | [] => none
      | _ :: body => some (rest.takeWhile fun line => !closes line, body)
    else none

/-- Lines joined by line feeds. -/
def joined (lines : List (List Char)) : String := String.ofList (Text.joinWith ['\n'] lines)

/-- The lines behind front matter as the text of a document, ended like the whole. -/
def bodyOf (source : String) (lines : List (List Char)) : String :=
  joined lines ++ (if source.endsWith "\n" then "\n" else "")

/-- The mapping that a value of front matter holds; other values count as empty ones. -/
def dataOf : Value → Entries Key Value
  | .map es => es
  | _ => []

/-- Cut off front matter. What is no YAML is no front matter; values that are written well and are
not acceptable are a failure. -/
def split (source : String) : Except Trace FrontMatter :=
  match cut source with
  | none => .ok { body := source }
  | some (lines, rest) =>
    match Yaml.read (joined lines) with
    | .ok v => .ok { data := dataOf v, body := bodyOf source rest }
    | .error t => if Yaml.isYamlFault t then .ok { body := source } else .error t

end FrontMatter

end CodeHighlight
