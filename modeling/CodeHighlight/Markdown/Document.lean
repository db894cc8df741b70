import CodeHighlight.Markdown.Abbreviation
import CodeHighlight.Markdown.Extensions
import CodeHighlight.Markdown.Fence
import CodeHighlight.Markdown.FrontMatter
import CodeHighlight.Markdown.Inline
import CodeHighlight.Markdown.RawHtml
import CodeHighlight.Markdown.Structure
import CodeHighlight.Packages.Module

/-!
# Documents in Markdown

A document in Markdown as HTML, with the front matter that was cut off. The names of extensions
decide which markup is read; a name that belongs to no extension is a failure.
-/

namespace CodeHighlight.Markdown

/-- The names of the extensions there are. -/
def extensionNames : List String :=
  ["abbr", "admonition", "attr_list", "codehilite", "def_list", "extra", "fenced_code",
    "footnotes", "legacy_attrs", "legacy_em", "md_in_html", "meta", "nl2br", "sane_lists",
    "smarty", "tables", "toc", "wikilinks"]

/-- The names that stand for several extensions together. -/
def extraNames : List String :=
  ["fenced_code", "footnotes", "attr_list", "def_list", "tables", "abbr", "md_in_html"]

/-- The package of the modules of extensions. -/
def extensionPackage : String := "markdown.extensions"

/-- The module of an extension. -/
def extensionModule (name : String) : String := extensionPackage ++ "." ++ name

/-- The modules of extensions and those around them. -/
def extensionModules : Modules :=
  [("markdown", .ok { isPackage := true }), (extensionPackage, .ok { isPackage := true })]
    ++ extensionNames.map fun name => (extensionModule name, .ok {})

/-- The extensions that a name stands for. -/
def extensionsOf (name : String) : Except Trace (List String) :=
  let expand (name : String) := if name = "extra" then extraNames else [name]
  if extensionNames.contains name then .ok (expand name)
  else do
    let path := String.ofList (name.toList.takeWhile (· != ':'))
    let _ ← extensionModules.load path
    match extensionNames.find? fun n => extensionModule n == path with
    | some n => pure (expand n)
    | none =>
      .error (.plain .attribute ("Failed to initiate extension " ++ Text.Quoted.quote path
        ++ ": module " ++ Text.Quoted.quote path ++ " has no attribute 'makeExtension'"))

/-- The extensions that some names stand for. -/
def activeExtensions (names : List String) : Except Trace (List String) := do
  let lists ← (names.mapM extensionsOf).mapError fun t =>
    t.raiseFrom (.plain .markdown ("Failed to initialize Markdown processor: " ++ t.message))
  pure lists.flatten

/-- The characters that a backslash keeps under some extensions. -/
def escapesFor (active : List String) : List Char :=
  Inline.plainEscapes ++ (if active.contains "tables" then ['|'] else [])

/-- A document as HTML under some extensions. -/
def toHtml (active : List String) (source : String) : String :=
  if Text.isAllBlank source.toList then ""
  else
    let lines := prepare source
    let lines := if active.contains "fenced_code" then Fence.replaceAll lines.length lines
      else lines.map Atom.ofChars
    let atoms := replaceRawHtml (Atom.unlines lines)
    let (blocks, definitions) := Blocks.ofText
      { abbreviations := active.contains "abbr", strictLists := active.contains "sane_lists" } atoms
    let read := Inline.readDocument
      { targets := definitions.targets
        escapes := escapesFor active
        breaks := active.contains "nl2br" } blocks
    (Abbreviation.markDocument definitions.abbreviations read |> Atom.toHtml)

/-- A document as HTML, and its front matter. -/
structure Document where
  html : String
  frontMatter : Entries Key Value

/-- Convert a document; without names of extensions the default ones are active. -/
def convert (names : Option (List String)) (source : String) : Except Trace Document := do
  let front ← FrontMatter.split source
  let active ← activeExtensions (names.getD defaultExtensions)
  pure ⟨toHtml active front.body, front.data⟩

end CodeHighlight.Markdown
