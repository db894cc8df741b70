import CodeHighlight.Failure
import CodeHighlight.Html.Node
import CodeHighlight.Html.References
import CodeHighlight.Text.Lowercase
import CodeHighlight.Text.Quoted

/-!
# Tokens of markup

Markup as a list of tokens: start tags, end tags, texts, and texts of special kinds. Nothing is
refused but a marked section of unknown kind; what does not read as markup is text.

The text is read twice over its end. As long as `final` is false, reading stops at the first
construct that the end cuts off; from there on it is read with `final` true, when such a construct
is taken as text.
-/

namespace CodeHighlight.Html
open Text (Wide isHexDigit)

/-- A token. A start tag has the attributes in written order, those without a value with the empty
one. -/
inductive Token where
  | startTag (name : String) (attributes : List (String × String)) (selfClosing : Bool)
  | endTag (name : String)
  | text (s : Wide)
  | special (kind : TextKind) (s : String)

namespace Token

/-- An ASCII letter. -/
def isLetter (c : Char) : Bool := c.isAlpha

/-- A character of the name of a tag. -/
def isTagChar (c : Char) : Bool :=
  !(c = '\t' || c = '\n' || c = '\r' || c = '\x0c' || c = ' ' || c = '/' || c = '>' || c.toNat = 0)

/-- Leave out blanks, and slashes that no `>` follows. -/
def skipFiller : List Char → List Char
  | [] => []
  | c :: rest =>
    if c = '/' then if rest.head? = some '>' then c :: rest else skipFiller rest
    else if Text.isBlank c then skipFiller rest
    else c :: rest

/-- The part of a text before a character and the part after it. -/
def cutOnce (mark : Char) (cs : List Char) : Option (List Char × List Char) :=
  match cs.dropWhile (· != mark) with
  | [] => none
  | _ :: rest => some (cs.takeWhile (· != mark), rest)

/-- A character of a value without quotes. -/
def isBareChar (c : Char) : Bool := c != '>' && !Text.isBlank c

/-- The value of an attribute after its name: nothing when there is none, and the rest. A quote that
is not closed does not start a value; the blank before it, or the equals sign before it when there
are several, ends an empty value or starts one without quotes. -/
def readValue (cs : List Char) : Option (List Char) × List Char :=
  match cs.dropWhile Text.isBlank with
  | '=' :: more =>
    let afterSigns := more.dropWhile (· == '=')
    let value := afterSigns.dropWhile Text.isBlank
    let quoted (q : Char) (inner : List Char) : Option (List Char) × List Char :=
      match cutOnce q inner with
      | some (v, rest) => (some v, rest)
      | none =>
        if value.length < afterSigns.length then (some [], value)
        else if afterSigns.length < more.length then
          let bare := ('=' :: value).takeWhile isBareChar
          (some bare, ('=' :: value).drop bare.length)
        else (none, cs)
    match value with
    | '\x27' :: inner => quoted '\x27' inner
    | '"' :: inner => quoted '"' inner
    | value => (some (value.takeWhile isBareChar), value.dropWhile isBareChar)
  | _ => (none, cs)

/-- The last character of the part of `whole` that stands before its end `rest`. -/
def lastBefore (whole rest : List Char) : Option Char :=
  (whole.take (whole.length - rest.length)).getLast?

/-- The attributes of a start tag, in at most the given number of steps: an attribute starts behind
a blank, a slash or a quote. -/
def readAttributes : Nat → Option Char → List Char → List (String × String) × List Char
  | 0, _, cs => ([], cs)
  | n + 1, before, cs =>
    let opens := match before with
      | some b => b = '\x27' || b = '"' || b = '/' || Text.isBlank b
      | none => false
    match cs with
    | [] => ([], [])
    | c :: rest =>
      if !opens || c = '/' || c = '>' || Text.isBlank c then ([], cs)
      else
        let name := c :: rest.takeWhile fun d => !(d = '/' || d = '=' || d = '>' || Text.isBlank d)
        let (value, afterValue) := readValue (cs.drop name.length)
        let next := skipFiller afterValue
        let (more, rest) := readAttributes n (lastBefore cs next) next
        ((Text.lower (String.ofList name), attributeValue (value.getD [])) :: more, rest)

/-- What the start of a tag reads as: a token and the rest, or nothing when the end cuts it off. -/
def readStartTag (cs : List Char) : Option (Token × List Char) :=
  let name := cs.takeWhile isTagChar
  let afterName := cs.drop name.length
  let first := afterName.dropWhile fun c => c = '/' || Text.isBlank c
  let filler := skipFiller afterName
  let (attributes, rest) := readAttributes cs.length (lastBefore cs first) first
  let label := Text.lower (String.ofList name)
  match rest.dropWhile Text.isBlank with
  | '>' :: rest =>
    some (.startTag label attributes (attributes.isEmpty && filler.head? = some '/'), rest)
  | '/' :: '>' :: rest => some (.startTag label attributes true, rest)
  | [] => none
  | c :: rest =>
    if c = '=' || c = '/' || isLetter c then none
    else
      let taken := cs.take (cs.length - (rest.length + 1))
      some (.text (String.ofList ('<' :: taken)), c :: rest)

/-- A character of the name of an end tag, after its first letter. -/
def isEndTagChar (c : Char) : Bool :=
  c.isAlphanum || c = '-' || c = '.' || c = ':' || c = '_'

/-- The name of an end tag and the rest when nothing but the name stands in it. -/
def readPlainEndTag (cs : List Char) : Option (String × List Char) :=
  match cs.dropWhile Text.isBlank with
  | c :: rest =>
    if isLetter c then
      let name := c :: rest.takeWhile isEndTagChar
      match (rest.dropWhile isEndTagChar).dropWhile Text.isBlank with
      | '>' :: rest => some (Text.lower (String.ofList name), rest)
      | _ => none
    else none
  | [] => none

/-- What `</` followed by a text reads as. -/
def readEndTag (cs : List Char) : Option (List Token × List Char) :=
  match cutOnce '>' cs with
  | none => none
  | some (before, after) =>
    match readPlainEndTag cs with
    | some (name, rest) => some ([.endTag name], rest)
    | none =>
      match cs with
      | '>' :: rest => some ([], rest)
      | c :: _ =>
        if isLetter c then
          some ([.endTag (Text.lower (String.ofList (cs.takeWhile isTagChar)))], after)
        else some ([.special .comment (String.ofList before)], after)
      | [] => none

/-- Find the characters `marks` in this order with only blanks between them: what stands before the
first and after the last. -/
def findMarks (marks : List Char) (before : List Char) :
    List Char → Option (List Char × List Char)
  | [] => none
  | c :: rest =>
    match follows marks (c :: rest) with
    | some after => some (before.reverse, after)
    | none => findMarks marks (c :: before) rest
where
  /-- The rest after the marks, the first of which stands at the start. -/
  follows : List Char → List Char → Option (List Char)
    | [], cs => some cs
    | m :: ms, cs =>
      match cs with
      | c :: rest =>
        if c = m then follows ms (if ms.isEmpty then rest else rest.dropWhile Text.isBlank)
        else none
      | [] => none

/-- A comment, given what follows `<!--`: it ends at two hyphens, blanks and `>`. -/
def readComment (before : List Char) : List Char → Option (List Token × List Char)
  | '-' :: '-' :: rest =>
    match rest.dropWhile Text.isBlank with
    | '>' :: after => some ([.special .comment (String.ofList before.reverse)], after)
    | _ => readComment ('-' :: before) ('-' :: rest)
  | c :: rest => readComment (c :: before) rest
  | [] => none

/-- A character of the name of a marked section, after its first letter. -/
def isSectionChar (c : Char) : Bool := c.isAlphanum || c = '-' || c = '_' || c = '.'

/-- The failure of a marked section that cannot be read. -/
def rejected (reason : String) : Trace :=
  .plain (.system "ParserRejectedMarkup")
    ("The markup you provided was rejected by the parser. Trying a different parser or a "
      ++ "different encoding may help.\n\nOriginal exception(s) from parser:\n AssertionError: "
      ++ reason)

/-- A marked section, given what follows `<![`. -/
def readSection (cs : List Char) : Except Trace (Option (List Token × List Char)) :=
  match cs with
  | [] => .ok none
  | c :: rest =>
    if !isLetter c then
      .error (rejected ("expected name token at "
        ++ Text.Quoted.quote (String.ofList ("<![".toList ++ cs.take 17))))
    else
      let name := c :: rest.takeWhile isSectionChar
      let afterName := (rest.dropWhile isSectionChar).dropWhile Text.isBlank
      if afterName.isEmpty then .ok none
      else
        let label := Text.lower (String.ofList name)
        let finish (marks : List Char) : Option (List Token × List Char) :=
          (findMarks marks [] cs).map fun (inner, after) =>
            if Text.lower (String.ofList (inner.take 6)) = "cdata[" then
              ([.special .cdata (String.ofList (inner.drop 6))], after)
            else ([.special .declaration (String.ofList inner)], after)
        if ["temp", "cdata", "ignore", "include", "rcdata"].contains label then
          .ok (finish [']', ']', '>'])
        else if ["if", "else", "endif"].contains label then .ok (finish [']', '>'])
        else
          .error (rejected ("unknown status keyword "
            ++ Text.Quoted.quote (String.ofList (cs.take (cs.length - afterName.length)))
            ++ " in marked section"))

/-- A text up to the next `>` as a text of a special kind. -/
def readUpToClose (kind : TextKind) (skip : Nat) (cs : List Char) :
    Option (List Token × List Char) :=
  match cutOnce '>' (cs.drop skip) with
  | some (inner, after) =>
    some ([.special kind (String.ofList (cs.take skip ++ inner))], after)
  | none => none

/-- A declaration, given what follows `<!`. -/
def readDeclaration (cs : List Char) : Except Trace (Option (List Token × List Char)) :=
  match cs with
  | '-' :: '-' :: rest => .ok (readComment [] rest)
  | '[' :: rest => readSection rest
  | cs =>
    if Text.lower (String.ofList (cs.take 7)) = "doctype" then
      .ok ((readUpToClose .doctype 7 cs).map fun (tokens, rest) =>
        (tokens.map fun t =>
          match t with
          | .special kind s => .special kind (String.ofList (s.toList.drop 8))
          | t => t, rest))
    else .ok (readUpToClose .comment 0 cs)

/-- What a text that starts with `<` reads as, given what follows that mark; nothing when the end
cuts it off. -/
def readMarkup (cs : List Char) : Except Trace (Option (List Token × List Char)) :=
  match cs with
  | [] => .ok none
  | '/' :: rest => .ok (readEndTag rest)
  | '?' :: rest => .ok (readUpToClose .processing 0 rest)
  | '!' :: rest => readDeclaration rest
  | c :: rest =>
    if isLetter c then .ok ((readStartTag (c :: rest)).map fun (t, rest) => ([t], rest))
    else .ok (some ([.text "<"], c :: rest))

/-- Markup that the end cuts off, as text: up to the next `>`, or else up to the next `<`, or else
the first character alone. -/
def brokenMarkup (cs : List Char) : List Char × List Char :=
  match cutOnce '>' cs with
  | some (before, after) => ('<' :: (before ++ ['>']), after)
  | none =>
    match cs.dropWhile (· != '<') with
    | [] => (['<'], cs)
    | rest => ('<' :: cs.takeWhile (· != '<'), rest)

/-- What a reference in a text reads as, given what follows the ampersand. -/
inductive Reference where
  | token (s : Wide) (rest : List Char)
  | stop (s : String) (rest : List Char)

/-- A character of a name in a text, after its first letter. -/
def isReferenceChar (c : Char) : Bool := c.isAlphanum || c = '-' || c = '.'

/-- The name of a reference at the start of a text: the longest one that a character other than a
letter or a digit follows. -/
def referenceName (cs : List Char) : Option (List Char) :=
  let run := cs.takeWhile isReferenceChar
  if run.length < cs.length then some run
  else
    let shorter := (run.reverse.dropWhile fun c => c.isAlphanum).drop 1
    if shorter.isEmpty then none else some shorter.reverse

/-- Read a reference. A reference that the end cuts off, and a number that a letter follows, stop
the reading; a semicolon further on lets it go on behind the mark. -/
def readReference (final : Bool) (cs : List Char) : Reference :=
  match cs with
  | [] => .stop "" ['&']
  | '#' :: rest =>
    let (digits, isHex) := match rest with
      | c :: more => if c = 'x' || c = 'X' then (more, true) else (rest, false)
      | [] => ([], false)
    let number := digits.takeWhile fun c => if isHex then isHexDigit c else c.isDigit
    match number, digits.drop number.length with
    | _ :: _, c :: after =>
      if isHexDigit c then bail rest
      else
        let value := if isHex then 'x' :: number else number
        .token (numberedText value) (if c = ';' then after else c :: after)
    | _, _ => bail rest
  | c :: rest =>
    if isLetter c then
      match referenceName (c :: rest) with
      | some name =>
        .token ↑(namedText name) (takeSemicolon ((c :: rest).drop name.length)).2
      | none =>
        if final && rest.isEmpty then .stop "" [c] else .stop "" ('&' :: c :: rest)
    else .token "&" (c :: rest)
where
  /-- Go on behind the mark of a number when a semicolon follows somewhere. -/
  bail (rest : List Char) : Reference :=
    if rest.contains ';' then .stop "&#" rest else .stop "" ('&' :: '#' :: rest)

/-- An end tag of the element `name` at the start of a text, after `</`. -/
def closes (name : String) (cs : List Char) : Bool :=
  match readPlainEndTag cs with
  | some (n, _) => n = name
  | none => false

/-- The text of a script or a style sheet before its end tag, and what follows `</`; nothing when
there is no end tag. -/
def rawText (name : String) (before : List Char) : List Char → Option (List Char × List Char)
  | '<' :: '/' :: rest =>
    if closes name rest then some (before.reverse, rest)
    else rawText name ('/' :: '<' :: before) rest
  | c :: rest => rawText name (c :: before) rest
  | [] => none

/-- The elements whose content is no markup. -/
def isRawElement (name : String) : Bool := name = "script" || name = "style"

/-- The tokens for a text, if it is not empty. -/
def textTokens (cs : List Char) : List Token :=
  if cs.isEmpty then [] else [.text (String.ofList cs)]

/-- Read tokens, in at most the given number of steps. -/
def read : Nat → Bool → Option String → List Char → Except Trace (List Token)
  | 0, _, _, _ => .ok []
  | _ + 1, _, _, [] => .ok []
  | n + 1, final, some name, cs =>
    match rawText name [] cs with
    | some (before, after) =>
      match readEndTag after with
      | some (tokens, rest) => do
        let more ← read n final none rest
        pure (textTokens before ++ tokens ++ more)
      | none => .ok []
    | none => .ok []
  | n + 1, final, none, c :: rest =>
    if c = '<' then do
      match ← readMarkup rest with
      | some (tokens, rest') =>
        let raw := match tokens with
          | [.startTag name _ false] => if isRawElement name then some name else none
          | _ => none
        let more ← read n final raw rest'
        pure (tokens ++ more)
      | none =>
        if !final then read n true none (c :: rest)
        else if rest.isEmpty then pure [.text "<"]
        else
          let (before, rest') := brokenMarkup rest
          let more ← read n final none rest'
          pure (textTokens before ++ more)
    else if c = '&' then
      match readReference final rest with
      | .token s rest' => do
        let more ← read n final none rest'
        pure (.text s :: more)
      | .stop s rest' => do
        if final then pure (textTokens s.toList ++ textTokens rest')
        else
          let more ← read n true none rest'
          pure (textTokens s.toList ++ more)
    else
      let isText := fun (d : Char) => d != '<' && d != '&'
      do
        let more ← read n final none (rest.dropWhile isText)
        pure (.text (String.ofList (c :: rest.takeWhile isText)) :: more)

/-- The tokens of a text. -/
def ofText (s : String) : Except Trace (List Token) :=
  let cs := s.toList
  read (2 * cs.length + 2) false none cs

end Token

end CodeHighlight.Html
