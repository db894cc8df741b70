import CodeHighlight.Text.Blank

/-!
# Classes of scopes

A scope is a dotted name such as `keyword.control`. A policy derives class names from it: one for
each segment, or one for all segments joined. The class names of several scopes are listed without
repetitions, and a whitelist then keeps the names that it holds.
-/

namespace CodeHighlight

/-- One class for each segment, or one class for the whole scope. -/
inductive ClassStyle where
  | segments
  | joined
  deriving DecidableEq, Repr

/-- The name of a style. -/
def ClassStyle.name : ClassStyle → String
  | .segments => "segments"
  | .joined => "joined"

/-- How class names are derived and which of them are kept. -/
structure ClassPolicy where
  style : ClassStyle := .segments
  separator : String := "-"
  lead : String := ""
  whitelist : Option (List String) := none
  deriving Repr

/-- The segments of a scope: what stands between dots and spaces, empty ones left out. -/
def scopeSegments (scope : String) : List String :=
  (Text.fields (fun c => c = '.' || c = ' ') scope.toList).map String.ofList

namespace ClassPolicy

/-- The class names of one scope. -/
def ofScope (p : ClassPolicy) (scope : String) : List String :=
  match scopeSegments scope, p.style with
  | [], _ => []
  | segments, .joined => [p.lead ++ p.separator.intercalate segments]
  | segments, .segments => segments.map (p.lead ++ ·)

/-- The whitelist holds a name; without a whitelist it holds all names. -/
def keeps (p : ClassPolicy) (name : String) : Bool :=
  match p.whitelist with
  | some names => names.contains name
  | none => true

/-- The class names of several scopes: the first occurrence of each name, if it is kept. -/
def classesFor (p : ClassPolicy) (scopes : List String) : List String :=
  (scopes.flatMap p.ofScope).eraseDups.filter p.keeps

end ClassPolicy

end CodeHighlight
