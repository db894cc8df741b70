import CodeHighlight.Assembly.Load
import CodeHighlight.Packages.Source

/-!
# The loader of packages

The loader that imports packages from a supply. It delivers at once and the same every time.
-/

namespace CodeHighlight.Source

/-- The loader of packages from a supply. -/
def loader (supply : Supply) : Loader := fun package _ =>
  { result := (load supply package).map asValue }

end CodeHighlight.Source
