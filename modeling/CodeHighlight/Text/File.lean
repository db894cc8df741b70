import CodeHighlight.Failure
import CodeHighlight.Text.Utf8

/-!
# Files of text

The text in the bytes of a file: UTF-8, with every line break as a line feed.
-/

namespace CodeHighlight.Text

/-- The text of a file with the given bytes. -/
def ofFile (bytes : Utf8.Bytes) : Except Trace String :=
  match Utf8.decode bytes with
  | .ok s => .ok (String.ofList (unifyBreaks s.toList))
  | .error e => .error (.plain .decoding e.message)

end CodeHighlight.Text
