import CodeHighlight.Text.Blank

/-!
# Paths

Paths as their components. Empty components and single dots do not count. The suffix of a name
starts at its last dot, unless the dot is the first or the last character.
-/

namespace CodeHighlight.Text.Path

/-- The components of a path. -/
def components (path : String) : List String :=
  ((cutAt '/' path.toList).map String.ofList).filter fun c => !c.isEmpty && c != "."

/-- The last component, or nothing. -/
def fileName (path : String) : String := ((components path).getLast?).getD ""

/-- A name before its last dot and the suffix that starts there. -/
def splitName (name : String) : String × String :=
  let cs := name.toList
  let tail := (cs.reverse.takeWhile (· != '.')).reverse
  let size := cs.length - tail.length
  if tail.isEmpty || size ≤ 1 then (name, "")
  else (String.ofList (cs.take (size - 1)), String.ofList ('.' :: tail))

/-- The suffix of a path. -/
def suffix (path : String) : String := (splitName (fileName path)).2

end CodeHighlight.Text.Path
