import CodeHighlight.Data.Entries
import CodeHighlight.Yaml.Scalar

/-!
# Tokens of YAML

A text as a list of tokens. The structure that indentation gives is made explicit: tokens mark where
blocks start and end.

A scalar or a collection can turn out to be a key when a colon follows it on the same line. Until
then it is remembered as a possible key of its level; the tokens that mark a key are inserted in
front of it later. At most one key is possible on each level, and one that starts a line of a block
must turn out to be a key.
-/

namespace CodeHighlight.Yaml

/-- A token. -/
inductive Token where
  | version (major : Nat)
  | handle (name replacement : String)
  | directive
  | documentStart
  | documentEnd
  | streamEnd
  | sequenceStart
  | mappingStart
  | blockEnd
  | flowSequenceStart
  | flowSequenceEnd
  | flowMappingStart
  | flowMappingEnd
  | entry
  | flowEntry
  | key
  | value
  | reference (name : String)
  | anchor (name : String)
  | tag (handle : Option String) (suffix : String)
  | scalar (plain : Bool) (text : String)
  deriving DecidableEq, Repr

/-- Something that may turn out to be a key: the number of its first token, whether it must be a
key, and where it starts. -/
structure PossibleKey where
  number : Nat
  required : Bool
  index : Nat
  line : Nat
  column : Nat

/-- A text that is being cut into tokens: the place reached, the tokens so far, latest first, the
indentations of the open blocks, innermost first, the depth of flow collections, whether a key may
start here, and the possible keys by level. -/
structure Scanning where
  place : Place
  tokens : List Token := []
  indent : Int := -1
  outer : List Int := []
  depth : Int := 0
  mayStartKey : Bool := true
  keys : Entries Int PossibleKey := []

namespace Scanning

/-- Add a token. -/
def push (s : Scanning) (t : Token) : Scanning := { s with tokens := t :: s.tokens }

/-- Insert a token in front of the token with the given number. -/
def insertAt (s : Scanning) (number : Nat) (t : Token) : Scanning :=
  let later := s.tokens.length - number
  { s with tokens := s.tokens.take later ++ t :: s.tokens.drop later }

/-- Outside of flow collections. -/
def inBlock (s : Scanning) : Bool := s.depth = 0

/-- The greatest distance between the start of a key and its colon. -/
def keyReach : Nat := 1024

/-- Forget the possible keys that lie too far back or on another line. -/
def dropStaleKeys (s : Scanning) : Except Trace Scanning :=
  let isStale (k : PossibleKey) : Bool :=
    k.line != s.place.line || keyReach < s.place.index - k.index
  if s.keys.any fun e => isStale e.2 && e.2.required then badToken
  else .ok { s with keys := s.keys.filter fun e => !isStale e.2 }

/-- Forget the possible key of the current level. -/
def dropKey (s : Scanning) : Except Trace Scanning :=
  match Entries.get? s.keys s.depth with
  | some k => if k.required then badToken else .ok { s with keys := Entries.erase s.keys s.depth }
  | none => .ok s

/-- Remember that a key may start here. -/
def saveKey (s : Scanning) : Except Trace Scanning :=
  if s.mayStartKey then do
    let s ← s.dropKey
    let p := s.place
    let k : PossibleKey :=
      ⟨s.tokens.length, s.inBlock && s.indent = p.column, p.index, p.line, p.column⟩
    pure { s with keys := Entries.insert s.keys s.depth k }
  else .ok s

/-- Close blocks, in at most the given number of steps, as long as they are indented deeper than
the given column. -/
def closeBlocks : Nat → Int → Scanning → Scanning
  | 0, _, s => s
  | n + 1, column, s =>
    if column < s.indent then
      closeBlocks n column
        ({ s with indent := s.outer.headD (-1), outer := s.outer.drop 1 }.push .blockEnd)
    else s

/-- Close the blocks that are indented deeper than the given column; there are none inside flow
collections. -/
def unwind (s : Scanning) (column : Int) : Scanning :=
  if s.inBlock then closeBlocks (s.outer.length + 1) column s else s

/-- Open a block at a column, if it is deeper than the current one, with a token in front of the
token with the given number. -/
def openBlock (s : Scanning) (column number : Nat) (t : Token) : Scanning :=
  if s.indent < column then
    { s with indent := column, outer := s.indent :: s.outer }.insertAt number t
  else s

/-- Go on behind blanks, comments and line breaks, in at most the given number of steps. -/
def skipBlanks : Nat → Scanning → Scanning
  | 0, s => s
  | n + 1, s =>
    let p := s.place.skipSpaces
    let p := if p.startsWith '#' then p.skipLine else p
    match p.lineBreak with
    | ([], p) => { s with place := p }
    | (_, p) => skipBlanks n { s with place := p, mayStartKey := s.mayStartKey || s.inBlock }

/-- Add a token of the given length. -/
def mark (s : Scanning) (size : Nat) (t : Token) : Scanning :=
  { s with place := s.place.skip size }.push t

/-- A mark between documents. -/
def separator (s : Scanning) (t : Token) : Except Trace Scanning := do
  let s ← (s.unwind (-1)).dropKey
  pure ({ s with mayStartKey := false }.mark 3 t)

/-- The start of a flow collection. -/
def flowStart (s : Scanning) (t : Token) : Except Trace Scanning := do
  let s ← s.saveKey
  pure ({ s with depth := s.depth + 1, mayStartKey := true }.mark 1 t)

/-- The end of a flow collection. -/
def flowEnd (s : Scanning) (t : Token) : Except Trace Scanning := do
  let s ← s.dropKey
  pure ({ s with depth := s.depth - 1, mayStartKey := false }.mark 1 t)

/-- The comma of a flow collection. -/
def flowComma (s : Scanning) : Except Trace Scanning := do
  let s ← { s with mayStartKey := true }.dropKey
  pure (s.mark 1 .flowEntry)

/-- The hyphen of a block sequence. -/
def hyphen (s : Scanning) : Except Trace Scanning :=
  if s.inBlock && !s.mayStartKey then badToken
  else do
    let s := if s.inBlock then s.openBlock s.place.column s.tokens.length .sequenceStart else s
    let s ← { s with mayStartKey := true }.dropKey
    pure (s.mark 1 .entry)

/-- The question mark of a key. -/
def question (s : Scanning) : Except Trace Scanning :=
  if s.inBlock && !s.mayStartKey then badToken
  else do
    let s := if s.inBlock then s.openBlock s.place.column s.tokens.length .mappingStart else s
    let s ← { s with mayStartKey := s.inBlock }.dropKey
    pure (s.mark 1 .key)

/-- The colon of a value. -/
def colon (s : Scanning) : Except Trace Scanning :=
  match Entries.get? s.keys s.depth with
  | some k =>
    let s := { s with keys := Entries.erase s.keys s.depth, mayStartKey := false }
    let s := s.insertAt k.number .key
    let s := if s.inBlock then s.openBlock k.column k.number .mappingStart else s
    .ok (s.mark 1 .value)
  | none =>
    if s.inBlock && !s.mayStartKey then badToken
    else do
      let s := if s.inBlock then s.openBlock s.place.column s.tokens.length .mappingStart else s
      let s ← { s with mayStartKey := s.inBlock }.dropKey
      pure (s.mark 1 .value)

/-- A letter, a digit, a hyphen or an underscore. -/
def isNameChar (c : Char) : Bool := c.isAlphanum || c = '-' || c = '_'

/-- The name of an alias or an anchor behind its sign. -/
def anchorName (p : Place) : Except Trace (String × Place) :=
  let (name, p) := p.takeWhile isNameChar
  if name.isEmpty then badToken
  else if endsWord p.head || p.head.any ("?:,]\x7d%@".toList.contains ·) || p.startsWith '\x60' then
    .ok (String.ofList name, p)
  else badToken

/-- Bytes written as escapes with a percent sign, in at most the given number of steps. -/
def escapedBytes : Nat → Text.Utf8.Bytes → Place → Except Trace (Text.Utf8.Bytes × Place)
  | 0, bytes, p => .ok (bytes, p)
  | n + 1, bytes, p =>
    if p.startsWith '%' then
      let digits := p.step.rest.take 2
      if digits.length = 2 && digits.all Text.isHexDigit then
        escapedBytes n (bytes ++ [(Text.hexValue digits).toUInt8]) (p.skip 3)
      else badToken
    else .ok (bytes, p)

/-- A character of the long form of a tag. -/
def isTagChar (c : Char) : Bool :=
  c.isAlphanum || "-;/?:@&=+$,_.!~*\x27()[]%".toList.contains c

/-- The long form of a tag, in at most the given number of steps. -/
def tagText : Nat → List Char → Place → Except Trace (List Char × Place)
  | 0, text, p => .ok (text, p)
  | n + 1, text, p =>
    match p.head with
    | some c =>
      if c = '%' then do
        let (bytes, p) ← escapedBytes (p.rest.length + 1) [] p
        match Text.Utf8.decode bytes with
        | .ok s => tagText n (text ++ s.toList) p
        | .error _ => badToken
      else if isTagChar c then tagText n (text ++ [c]) p.step
      else .ok (text, p)
    | none => .ok (text, p)

/-- The long form of a tag, which is not empty. -/
def tagSuffix (p : Place) : Except Trace (String × Place) := do
  let (text, q) ← tagText (p.rest.length + 1) [] p
  if q.index = p.index then badToken else pure (String.ofList text, q)

/-- A handle between two exclamation marks, or one mark before a space. -/
def tagHandle (p : Place) : Except Trace (String × Place) :=
  if !p.startsWith '!' then badToken
  else
    let (name, q) := p.step.takeWhile isNameChar
    if q.startsWith '!' then .ok ("!" ++ String.ofList name ++ "!", q.step)
    else if name.isEmpty && q.startsWith ' ' then .ok ("!", q)
    else badToken

/-- A tag. -/
def tagToken (p : Place) : Except Trace (Token × Place) := do
  let (t, p) ←
    if p.peek 1 = some '<' then do
      let (suffix, p) ← tagSuffix (p.skip 2)
      if p.startsWith '>' then pure (Token.tag none suffix, p.step) else badToken
    else if endsWord (p.peek 1) then pure (Token.tag none "!", p.step)
    else
      let word := p.step.rest.takeWhile fun c => !endsField (some c)
      if word.contains '!' then do
        let (handle, p) ← tagHandle p
        let (suffix, p) ← tagSuffix p
        pure (Token.tag (some handle) suffix, p)
      else do
        let (suffix, p) ← tagSuffix p.step
        pure (Token.tag (some "!") suffix, p)
  if endsField p.head then pure (t, p) else badToken

/-- A number in a directive. -/
def directiveNumber (p : Place) : Except Trace (Nat × Place) :=
  let (digits, p) := p.takeWhile Char.isDigit
  if digits.isEmpty then badToken else .ok (Text.decimalValue digits, p)

/-- A directive behind its sign. -/
def directiveToken (p : Place) : Except Trace (Token × Place) := do
  let (name, p) := p.takeWhile isNameChar
  if name.isEmpty || !endsField p.head then badToken
  else
    let (t, p) ←
      if name = "YAML".toList then do
        let (major, p) ← directiveNumber p.skipSpaces
        if p.startsWith '.' then do
          let (_, p) ← directiveNumber p.step
          if endsField p.head then pure (Token.version major, p) else badToken
        else badToken
      else if name = "TAG".toList then do
        let (handle, p) ← tagHandle p.skipSpaces
        if p.startsWith ' ' then do
          let (suffix, p) ← tagSuffix p.skipSpaces
          if endsField p.head then pure (Token.handle handle suffix, p) else badToken
        else badToken
      else pure (Token.directive, p.skipLine)
    let p ← p.ignoreLine
    pure (t, p)

/-- A token that may start a key and after which none may start. -/
def keyLike (s : Scanning) (read : Place → Except Trace (Token × Place)) :
    Except Trace Scanning := do
  let s ← s.saveKey
  let (t, p) ← read s.place
  pure ({ s with place := p, mayStartKey := false }.push t)

/-- A plain scalar may stand here. -/
def startsPlain (s : Scanning) : Bool :=
  match s.place.rest with
  | [] => false
  | c :: rest =>
    (!endsWord (some c) && !"-?:,[]\x7b\x7d#&*!|>\x27\"%@".toList.contains c && c != '\x60')
      || (!endsWord rest.head? && (c = '-' || (s.inBlock && (c = '?' || c = ':'))))

/-- A plain scalar. -/
def plain (s : Scanning) : Except Trace Scanning := do
  let s ← s.saveKey
  let (text, crossed, p) :=
    plainScalar (!s.inBlock) (s.indent + 1) s.place.rest.length [] [] false s.place
  pure ({ s with place := p, mayStartKey := crossed }.push (.scalar true (String.ofList text)))

/-- Read the next token. -/
def next (s : Scanning) (c : Char) : Except Trace Scanning :=
  let p := s.place
  let spaced := endsWord (p.peek 1)
  if c = '%' && p.column = 0 then do
    let s ← (s.unwind (-1)).dropKey
    let (t, p) ← directiveToken p.step
    pure ({ s with place := p, mayStartKey := false }.push t)
  else if p.column = 0 && p.atSeparator then
    s.separator (if c = '-' then .documentStart else .documentEnd)
  else if c = '[' then s.flowStart .flowSequenceStart
  else if c = '\x7b' then s.flowStart .flowMappingStart
  else if c = ']' then s.flowEnd .flowSequenceEnd
  else if c = '\x7d' then s.flowEnd .flowMappingEnd
  else if c = ',' then s.flowComma
  else if c = '-' && spaced then s.hyphen
  else if c = '?' && (spaced || !s.inBlock) then s.question
  else if c = ':' && (spaced || !s.inBlock) then s.colon
  else if c = '*' then s.keyLike fun p => do
    let (name, p) ← anchorName p.step
    pure (.reference name, p)
  else if c = '&' then s.keyLike fun p => do
    let (name, p) ← anchorName p.step
    pure (.anchor name, p)
  else if c = '!' then s.keyLike tagToken
  else if (c = '|' || c = '>') && s.inBlock then do
    let s ← { s with mayStartKey := true }.dropKey
    let (text, p) ← blockScalar (c = '>') s.indent p.step
    pure ({ s with place := p }.push (.scalar false (String.ofList text)))
  else if c = '\x27' || c = '"' then s.keyLike fun p => do
    let (text, p) ← quotedScalar (c = '"') p.rest.length [] p.step
    pure (.scalar false (String.ofList text), p)
  else if s.startsPlain then s.plain
  else badToken

/-- The tokens from here on, in at most the given number of steps, with the failure that ends them
early. -/
def run : Nat → Scanning → List Token × Option Trace
  | 0, s => (s.tokens.reverse, some (fault "ScannerError"))
  | n + 1, s =>
    let s := skipBlanks (s.place.rest.length + 1) s
    match s.dropStaleKeys with
    | .error t => (s.tokens.reverse, some t)
    | .ok s =>
      let s := s.unwind s.place.column
      match s.place.head with
      | none =>
        let s := s.unwind (-1)
        match s.dropKey with
        | .error t => (s.tokens.reverse, some t)
        | .ok s => ((s.push .streamEnd).tokens.reverse, none)
      | some c =>
        match s.next c with
        | .error t => (s.tokens.reverse, some t)
        | .ok s => run n s

end Scanning

/-- A character that may stand in a text. -/
def isPrintable (c : Char) : Bool :=
  c = '\t' || c = '\n' || c = '\r' || c = '\x85' || (' ' ≤ c && c ≤ '~')
    || (0xa0 ≤ c.toNat && c.toNat ≤ 0xfffd) || 0x10000 ≤ c.toNat

/-- The tokens of a text, with the failure that ends them early. -/
def Token.ofText (text : String) : List Token × Option Trace :=
  let cs := text.toList
  if cs.all isPrintable then
    let cs := if cs.head? = some '\ufeff' then cs.drop 1 else cs
    Scanning.run (cs.length + 1) { place := { rest := cs } }
  else ([], some (fault "ReaderError"))

end CodeHighlight.Yaml
