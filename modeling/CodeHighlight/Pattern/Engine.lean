import CodeHighlight.Data.Value
import CodeHighlight.Pattern.Reader

/-!
# Engines for search patterns

An engine compiles a value to a search, or says why it does not. Which patterns there are is up to
the engine. `Pattern.Engine.builtin` is the engine for the notation that `Pattern.ofText` reads; it
compiles patterns over bytes too, but these cannot search a text.
-/

namespace CodeHighlight
open Text.Utf8 (Bytes)

/-- A compiled pattern: whether it is found in a text, or the failure to search the text. -/
structure Searcher where
  run : String → Except Trace Bool

mutual

/-- The type of the first thing inside a value that cannot be the key of a mapping. -/
def Value.unhashable? : Value → Option String
  | .list _ => some "list"
  | .map _ => some "dict"
  | .tuple items => Value.unhashableIn? items
  | .scalar _ | .grammar _ | .thing _ _ => none

/-- The type of the first of several values that cannot be the key of a mapping. -/
def Value.unhashableIn? : List Value → Option String
  | [] => none
  | v :: rest => (Value.unhashable? v).or (Value.unhashableIn? rest)

end

namespace Pattern

/-- An engine for patterns. -/
structure Engine where
  compile : Value → Except Trace Searcher

/-- The kind of failure of a malformed pattern. -/
def malformed : FailureKind := .system "error"

/-- Search a text. -/
def searcher (p : Pattern) : Searcher := ⟨fun text => .ok (p.search text)⟩

/-- A pattern over bytes searches no text. -/
def bytesSearcher : Searcher :=
  ⟨fun _ => .error (.plain .type "cannot use a bytes pattern on a string-like object")⟩

/-- The failure of a fault in the text of a pattern. -/
def Fault.trace (text : String) : Fault → Trace
  | .malformed message position => .plain Pattern.malformed (wording text message position)
  | .tooManyRepetitions => .plain (.system "OverflowError") "the repetition number is too large"
  | .tooManyDigits count => .plain .value (Text.tooManyDigits count)

/-- Compile the text of a pattern. -/
def compileText (text : String) (make : Pattern → Searcher) : Except Trace Searcher :=
  match ofText text with
  | .ok p => .ok (make p)
  | .error fault => .error (fault.trace text)

/-- The engine for the notation of this program. -/
def Engine.builtin : Engine where
  compile
    | .scalar (.str s) => compileText s searcher
    | .scalar (.bytes bs) =>
      compileText (String.ofList (bs.map fun b => Char.ofNat b.toNat)) fun _ => bytesSearcher
    | v =>
      .error (.plain .type (match v.unhashable? with
        | some t => "unhashable type: '" ++ t ++ "'"
        | none => "first argument must be string or compiled pattern"))

end Pattern

end CodeHighlight
