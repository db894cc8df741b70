import CodeHighlight.Diagnostics
import CodeHighlight.Html.Printer
import CodeHighlight.Html.Reader

/-!
# Readers by name

A document is read by a reader that is asked for by name. One reader is built in; it is also taken,
with a warning, when the reader that was asked for is not available.
-/

namespace CodeHighlight.Html.Backend

/-- The name of the built-in reader. -/
def builtin : String := "html.parser"

/-- The names under which the built-in reader is available. -/
def available : List String := [builtin, "html", "strict"]

/-- The warning that another reader is taken. -/
def unavailable (name : String) : LogRecord where
  level := .warning
  message := "HTML parser '" ++ name ++ "' is unavailable, falling back to " ++ builtin

/-- The reader that is taken for a name, and what is said about it. -/
def choose (name : String) : String × List LogRecord :=
  if available.contains name then (name, []) else (builtin, [unavailable name])

end CodeHighlight.Html.Backend
