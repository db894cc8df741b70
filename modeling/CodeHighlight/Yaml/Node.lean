import CodeHighlight.Yaml.Token

/-!
# Nodes of YAML

Tokens as a tree of scalars, sequences and mappings, each with its tag. Anchored nodes are
remembered, and an alias stands for the node it names. A tag is either written, or it follows from
the form of the node: plain scalars get the tag of what they look like.
-/

namespace CodeHighlight.Yaml

/-- A scalar, a sequence or a mapping with its tag. -/
inductive Node where
  | scalar (tag : String) (text : String)
  | sequence (tag : String) (items : List Node)
  | mapping (tag : String) (entries : List (Node × Node))
  deriving Inhabited

/-- The tag of a node. -/
def Node.tag : Node → String
  | .scalar t _ => t
  | .sequence t _ => t
  | .mapping t _ => t

/-- The tag of a standard type. -/
def standardTag (name : String) : String := "tag:yaml.org,2002:" ++ name

/-! ## What plain scalars look like -/

/-- The texts of truth values, in lower case. -/
def truthTexts : List (String × Bool) :=
  [("yes", true), ("no", false), ("true", true), ("false", false), ("on", true), ("off", false)]

/-- A word in lower case, in upper case, or with a capital. -/
def isCased (word : String) (cs : List Char) : Bool :=
  let low := word.toList
  let up := low.map Char.toUpper
  cs = low || cs = up || cs = up.take 1 ++ low.drop 1

/-- A text without its sign. -/
def unsigned (cs : List Char) : List Char :=
  match cs with
  | c :: rest => if c = '+' || c = '-' then rest else cs
  | [] => []

/-- A digit or an underscore. -/
def isSpacedDigit (c : Char) : Bool := c.isDigit || c = '_'

/-- One or more groups of one or two digits below sixty, each behind a colon; what stands after
them. -/
def sexagesimal : Nat → List Char → Option (List Char)
  | 0, _ => none
  | n + 1, cs =>
    match cs with
    | ':' :: a :: b :: rest =>
      if a.isDigit && a < '6' && b.isDigit then
        (sexagesimal n rest) <|> some rest
      else if a.isDigit then (sexagesimal n (b :: rest)) <|> some (b :: rest)
      else none
    | [':', a] => if a.isDigit then some [] else none
    | _ => none

/-- The look of an integer. -/
def looksInt (cs : List Char) : Bool :=
  match unsigned cs with
  | '0' :: 'b' :: rest => !rest.isEmpty && rest.all fun c => c = '0' || c = '1' || c = '_'
  | '0' :: 'x' :: rest => !rest.isEmpty && rest.all fun c => Text.isHexDigit c || c = '_'
  | '0' :: rest => rest.all fun c => ('0' ≤ c && c ≤ '7') || c = '_'
  | c :: rest =>
    c.isDigit &&
      match rest.dropWhile isSpacedDigit with
      | [] => true
      | more => sexagesimal more.length more = some []
  | [] => false

/-- Nothing, or an exponent with its sign. -/
def isExponent (cs : List Char) : Bool :=
  match cs with
  | [] => true
  | e :: s :: digits =>
    (e = 'e' || e = 'E') && (s = '+' || s = '-') && !digits.isEmpty && digits.all Char.isDigit
  | _ => false

/-- The look of a number with a point. -/
def looksFloat (cs : List Char) : Bool :=
  let body := unsigned cs
  match body with
  | '.' :: rest =>
    isCased "inf" rest
      || (body.length = cs.length &&
        (["nan", "NaN", "NAN"].contains (String.ofList rest)
          || (rest.head?.any Char.isDigit && isExponent (rest.dropWhile isSpacedDigit))))
  | c :: rest =>
    c.isDigit &&
      match rest.dropWhile isSpacedDigit with
      | '.' :: more => isExponent (more.dropWhile isSpacedDigit)
      | more =>
        match sexagesimal more.length more with
        | some ('.' :: rest) => rest.all isSpacedDigit
        | _ => false
  | [] => false

/-- A date, possibly with a time, as its written parts. -/
structure Stamp where
  year : List Char
  month : List Char
  day : List Char
  time : Option (List Char × List Char × List Char × List Char) := none
  zone : Option (Option (Bool × List Char × List Char)) := none

/-- So many digits, at least `least` and at most `most`, and what stands after them. -/
def digitsOf (least most : Nat) (cs : List Char) : Option (List Char × List Char) :=
  let digits := (cs.take most).takeWhile Char.isDigit
  if digits.length < least then none else some (digits, cs.drop digits.length)

/-- A character, and what stands after it. -/
def expect (c : Char) (cs : List Char) : Option (List Char) :=
  match cs with
  | d :: rest => if d = c then some rest else none
  | [] => none

/-- The zone of a time: none, universal time, or a sign with hours and minutes. -/
def zoneOf (cs : List Char) : Option (Option (Option (Bool × List Char × List Char))) :=
  match cs with
  | [] => some none
  | cs =>
    match cs.dropWhile fun c => c = ' ' || c = '\t' with
    | ['Z'] => some (some none)
    | s :: rest =>
      if s = '+' || s = '-' then do
        let (hours, rest) ← digitsOf 1 2 rest
        match rest with
        | [] => some (some (some (s = '-', hours, [])))
        | rest => do
          let (minutes, rest) ← digitsOf 2 2 (← expect ':' rest)
          if rest.isEmpty then some (some (some (s = '-', hours, minutes))) else none
      else none
    | [] => none

/-- Read a date with or without a time. -/
def stampOf? (cs : List Char) : Option Stamp := do
  let (year, rest) ← digitsOf 4 4 cs
  let (month, rest) ← digitsOf 1 2 (← expect '-' rest)
  let (day, rest) ← digitsOf 1 2 (← expect '-' rest)
  match rest with
  | [] => some { year, month, day }
  | c :: more =>
    let rest ← if c = 'T' || c = 't' then some more
      else if c = ' ' || c = '\t' then some (more.dropWhile fun c => c = ' ' || c = '\t')
      else none
    let (hour, rest) ← digitsOf 1 2 rest
    let (minute, rest) ← digitsOf 2 2 (← expect ':' rest)
    let (second, rest) ← digitsOf 2 2 (← expect ':' rest)
    let (fraction, rest) := match rest with
      | '.' :: rest => (rest.takeWhile Char.isDigit, rest.dropWhile Char.isDigit)
      | rest => ([], rest)
    let zone ← zoneOf rest
    some { year, month, day, time := some (hour, minute, second, fraction), zone }

/-- The look of a date: without a time the month and the day have two digits. -/
def looksStamp (cs : List Char) : Bool :=
  (stampOf? cs).any fun s => s.time.isSome || (s.month.length = 2 && s.day.length = 2)

/-- The tag of a plain scalar. -/
def plainTag (text : String) : String :=
  let cs := text.toList
  standardTag
    (if truthTexts.any fun t => isCased t.1 cs then "bool"
    else if looksFloat cs then "float"
    else if looksInt cs then "int"
    else if cs = ['<', '<'] then "merge"
    else if cs.isEmpty || cs = ['~'] || isCased "null" cs then "null"
    else if looksStamp cs then "timestamp"
    else if cs = ['='] then "value"
    else if cs = ['!'] || cs = ['&'] || cs = ['*'] then "yaml"
    else "str")

/-! ## Trees -/

/-- Tokens that are read as a tree: the tokens left, the failure behind them, what the handles of
tags stand for, and the anchored nodes. -/
structure Composing where
  tokens : List Token
  ending : Option Trace
  handles : Entries String String := []
  anchors : Entries String Node := []

/-- A reading step. -/
abbrev Compose := StateT Composing (Except Trace)

namespace Compose

/-- Refuse tokens that do not follow each other. -/
def misplaced {α : Type} : Compose α := throw (fault "ParserError")

/-- Refuse a tree that is not put together correctly. -/
def broken {α : Type} : Compose α := throw (fault "ComposerError")

/-- The next token. -/
def peek : Compose Token := do
  let s ← get
  match s.tokens with
  | t :: _ => pure t
  | [] => throw (s.ending.getD (fault "ParserError"))

/-- Go on behind the next token. -/
def drop : Compose Unit := modify fun s => { s with tokens := s.tokens.drop 1 }

/-- Go on behind the next token if it is the given one. -/
def accept (t : Token) : Compose Bool := do
  if (← peek) = t then
    drop
    pure true
  else pure false

/-- The next token is one of the given ones. -/
def atAny (ts : List Token) : Compose Bool := do pure (ts.contains (← peek))

/-- The scalar that stands where nothing is written. -/
def blank : Node := .scalar (standardTag "null") ""

/-- The anchor and the tag in front of a node. -/
def properties : Compose (Option String × Option (Option String × String)) := do
  match ← peek with
  | .anchor a =>
    drop
    match ← peek with
    | .tag h s =>
      drop
      pure (some a, some (h, s))
    | _ => pure (some a, none)
  | .tag h s =>
    drop
    match ← peek with
    | .anchor a =>
      drop
      pure (some a, some (h, s))
    | _ => pure (none, some (h, s))
  | _ => pure (none, none)

/-- The full form of a tag. -/
def fullTag : Option (Option String × String) → Compose (Option String)
  | none => pure none
  | some (none, suffix) => pure (some suffix)
  | some (some handle, suffix) => do
    match Entries.get? (← get).handles handle with
    | some start => pure (some (start ++ suffix))
    | none => misplaced

/-- The tag of a collection. -/
def collectionTag (tag : Option String) (name : String) : String :=
  match tag with
  | some t => if t = "!" then standardTag name else t
  | none => standardTag name

/-- The tag of a scalar. -/
def scalarTag (tag : Option String) (plain : Bool) (text : String) : String :=
  match tag with
  | some t => if t = "!" then plainTag text else t
  | none => if plain then plainTag text else standardTag "str"

/-- Remember an anchored node. -/
def remember (anchor : Option String) (n : Node) : Compose Node := do
  match anchor with
  | some a => modify fun s => { s with anchors := Entries.insert s.anchors a n }
  | none => pure ()
  pure n

/-- Refuse an anchor that is used twice. -/
def checkAnchor (anchor : Option String) : Compose Unit := do
  match anchor with
  | some a => if Entries.has (← get).anchors a then broken
  | none => pure ()

/-- Items up to a token that no item starts with, each read by `item`, in at most the given number
of steps. -/
def many {α : Type} (item : Compose (Option α)) : Nat → Compose (List α)
  | 0 => misplaced
  | n + 1 => do
    match ← item with
    | some a => do
      let rest ← many item n
      pure (a :: rest)
    | none => pure []

/-- A node, unless one of the given tokens comes next. -/
def unlessAny (stops : List Token) (node : Compose Node) : Compose Node := do
  if ← atAny stops then pure blank else node

/-- The items of a block sequence, its end included. -/
def blockItem (node : Compose Node) : Compose (Option Node) := do
  if ← accept .entry then
    let n ← unlessAny [.entry, .blockEnd] node
    pure (some n)
  else if ← accept .blockEnd then pure none
  else misplaced

/-- The items of a sequence that is indented like the key before it. -/
def flatItem (node : Compose Node) : Compose (Option Node) := do
  if ← accept .entry then
    let n ← unlessAny [.entry, .key, .value, .blockEnd] node
    pure (some n)
  else pure none

/-- The entries of a block mapping, its end included. -/
def blockEntry (node : Compose Node) : Compose (Option (Node × Node)) := do
  let stops : List Token := [.key, .value, .blockEnd]
  if ← accept .blockEnd then pure none
  else
    let k ← if ← accept .key then unlessAny stops node else misplaced
    let v ← if ← accept .value then unlessAny stops node else pure blank
    pure (some (k, v))

/-- The comma between the items of a flow collection that ends with the given token; whether the
collection is over. -/
def flowSeparator (first : Bool) (stop : Token) : Compose Bool := do
  if ← accept stop then pure true
  else if first then pure false
  else if ← accept .flowEntry then accept stop
  else misplaced

/-- The value of an entry of a flow collection, if there is one. -/
def flowValue (node : Compose Node) (stop : Token) : Compose Node := do
  if ← accept .value then unlessAny [.flowEntry, stop] node else pure blank

/-- The items of a flow sequence, its end included; an item with a key is a mapping of one entry. -/
def flowItems (node : Compose Node) : Nat → Bool → Compose (List Node)
  | 0, _ => misplaced
  | n + 1, first => do
    if ← flowSeparator first .flowSequenceEnd then pure []
    else
      let item ← if ← accept .key then do
          let k ← unlessAny [.value, .flowEntry, .flowSequenceEnd] node
          let v ← flowValue node .flowSequenceEnd
          pure (Node.mapping (standardTag "map") [(k, v)])
        else node
      let rest ← flowItems node n false
      pure (item :: rest)

/-- The entries of a flow mapping, its end included. -/
def flowEntries (node : Compose Node) : Nat → Bool → Compose (List (Node × Node))
  | 0, _ => misplaced
  | n + 1, first => do
    if ← flowSeparator first .flowMappingEnd then pure []
    else
      let e ← if ← accept .key then do
          let k ← unlessAny [.value, .flowEntry, .flowMappingEnd] node
          let v ← flowValue node .flowMappingEnd
          pure (k, v)
        else do
          let k ← node
          pure (k, blank)
      let rest ← flowEntries node n false
      pure (e :: rest)

/-- Where a node stands: in a flow collection, in a block, or behind a key of a block, where a
sequence may be indented like the key. -/
inductive Position where
  | flow
  | block
  | behindKey
  deriving DecidableEq

/-- A node, in at most the given number of levels. -/
def node : Nat → Position → Compose Node
  | 0, _ => misplaced
  | n + 1, position => do
    match ← peek with
    | .reference a =>
      drop
      match Entries.get? (← get).anchors a with
      | some x => pure x
      | none => broken
    | _ =>
      let (anchor, tag) ← properties
      let tag ← fullTag tag
      let steps := (← get).tokens.length + 1
      match ← peek with
      | .scalar plain text =>
        drop
        checkAnchor anchor
        remember anchor (.scalar (scalarTag tag plain text) text)
      | .flowSequenceStart =>
        drop
        checkAnchor anchor
        let items ← flowItems (node n .flow) steps true
        remember anchor (.sequence (collectionTag tag "seq") items)
      | .flowMappingStart =>
        drop
        checkAnchor anchor
        let entries ← flowEntries (node n .flow) steps true
        remember anchor (.mapping (collectionTag tag "map") entries)
      | .entry =>
        if position = .behindKey then do
          checkAnchor anchor
          let items ← many (flatItem (node n .block)) steps
          remember anchor (.sequence (collectionTag tag "seq") items)
        else bare anchor tag
      | .sequenceStart =>
        if position = .flow then bare anchor tag
        else do
          drop
          checkAnchor anchor
          let items ← many (blockItem (node n .block)) steps
          remember anchor (.sequence (collectionTag tag "seq") items)
      | .mappingStart =>
        if position = .flow then bare anchor tag
        else do
          drop
          checkAnchor anchor
          let entries ← many (blockEntry (node n .behindKey)) steps
          remember anchor (.mapping (collectionTag tag "map") entries)
      | _ => bare anchor tag
where
  /-- The empty scalar of an anchor or a tag alone. -/
  bare (anchor tag : Option String) : Compose Node := do
    if anchor.isNone && tag.isNone then misplaced
    else
      checkAnchor anchor
      remember anchor (.scalar (scalarTag tag (tag.isNone) "") "")

/-- What the handles of tags stand for at first. -/
def standardHandles : Entries String String := [("!", "!"), ("!!", standardTag "")]

/-- Directives in front of a document, given whether a version has been named. -/
def directives : Nat → Bool → Entries String String → Compose (Entries String String)
  | 0, _, handles => pure handles
  | n + 1, versioned, handles => do
    match ← peek with
    | .version major =>
      drop
      if versioned || major != 1 then misplaced else directives n true handles
    | .handle name replacement =>
      drop
      if Entries.has handles name then misplaced
      else directives n versioned (handles ++ [(name, replacement)])
    | .directive =>
      drop
      directives n versioned handles
    | _ => pure handles

/-- Skip the marks that end documents. -/
def skipEnds : Nat → Compose Unit
  | 0 => pure ()
  | n + 1 => do
    if ← accept .documentEnd then skipEnds n

/-- The start of a document, marks and directives included; nothing at the end of the text. -/
def documentStart : Compose Bool := do
  let steps := (← get).tokens.length + 1
  skipEnds steps
  if ← accept .streamEnd then pure false
  else
    let handles ← directives steps false []
    if ← accept .documentStart then
      modify fun s => { s with handles :=
        handles ++ standardHandles.filter fun h => !Entries.has handles h.1 }
      pure true
    else misplaced

/-- The content of a document behind its mark. -/
def documentContent (levels : Nat) : Compose Node := do
  match ← peek with
  | .version _ | .handle _ _ | .directive | .documentStart | .documentEnd | .streamEnd => pure blank
  | _ => node levels .block

/-- The only document of a text, or nothing when there is none. -/
def document : Compose (Option Node) := do
  let levels := (← get).tokens.length + 1
  let root ← match ← peek with
    | .version _ | .handle _ _ | .directive | .documentStart | .streamEnd => do
      if ← documentStart then
        let n ← documentContent levels
        pure (some n)
      else pure none
    | _ => do
      modify fun s => { s with handles := standardHandles }
      let n ← node levels .block
      pure (some n)
  if root.isSome then
    let _ ← accept .documentEnd
    if ← documentStart then broken
  pure root

end Compose

/-- The tree of a text, or nothing when the text is empty. -/
def Node.ofText (text : String) : Except Trace (Option Node) :=
  let (tokens, ending) := Token.ofText text
  (Compose.document.run { tokens, ending }).map Prod.fst

end CodeHighlight.Yaml
