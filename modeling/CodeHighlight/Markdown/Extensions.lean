import CodeHighlight.Data.Value
import CodeHighlight.Text.Lowercase

/-!
# Extension names

The names of the Markdown extensions of a run: the default ones and then the requested ones, each
once, without those that are disabled and those that would highlight code themselves. Names are
compared in lower case.
-/

namespace CodeHighlight.Markdown

/-- The extensions that are active unless they are disabled. -/
def defaultExtensions : List String :=
  ["abbr", "attr_list", "def_list", "fenced_code", "footnotes", "md_in_html", "tables"]

/-- The extensions that are never active, because they would highlight code themselves. -/
def conflictingExtensions : List String := ["codehilite", "markdown.extensions.codehilite"]

/-- What separates names: commas, blanks and the null character. -/
def separatesNames (c : Char) : Bool := c = ',' || Text.isBlank c || c.toNat = 0

/-- The names in a text. -/
def namesIn (s : String) : List String :=
  (Text.fields separatesNames s.toList).map String.ofList

/-- The names in several texts. -/
def namesInAll (texts : List String) : List String := texts.flatMap namesIn

/-- The name of a type where a value is expected that has items. -/
def itemlessName : Value → String
  | .thing _ shown => shown
  | v => v.typeName

/-- The texts that a value offers: none, itself, or the items that are texts. -/
def offered (v : Value) : Except Trace (List String) :=
  match v with
  | .scalar .null => .ok []
  | .scalar (.str s) => .ok [s]
  | .scalar (.bytes _) => .ok []
  | v =>
    match v.items? with
    | some items => .ok (Value.strings items)
    | none => .error (.plain .type ("'" ++ itemlessName v ++ "' object is not iterable"))

/-- The names that a value offers. -/
def normalize (v : Value) : Except Trace (List String) := do
  let texts ← offered v
  pure (namesInAll texts)

/-- Keep each name once, without those to leave out; `seen` are the lower-case names before. -/
def keepNew (leftOut seen : List String) : List String → List String
  | [] => []
  | name :: rest =>
    let key := Text.lower name
    if seen.contains key || leftOut.contains key || conflictingExtensions.contains key then
      keepNew leftOut seen rest
    else name :: keepNew leftOut (key :: seen) rest

/-- The active extensions for requested and disabled names. -/
def resolveNames (requested disabled : List String) : List String :=
  keepNew (disabled.map Text.lower) [] (defaultExtensions ++ requested)

/-- The active extensions for values that offer the requested and the disabled names. -/
def resolve (requested disabled : Value) : Except Trace (List String) := do
  let disabled ← normalize disabled
  let requested ← normalize requested
  pure (resolveNames requested disabled)

end CodeHighlight.Markdown
