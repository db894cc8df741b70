import CodeHighlight.Data.Key
import CodeHighlight.Text.Alphanumeric
import CodeHighlight.Text.Lowercase
import CodeHighlight.Yaml.Node

/-!
# Scalars of YAML as values

Integers in several bases, numbers with a point, dates and times. Texts that look right can still
be wrong, a month beyond the twelfth for instance; their failures are not failures to read YAML.
-/

namespace CodeHighlight.Yaml

/-- A value that is not acceptable. -/
def badValue {α : Type} (message : String) : Except Trace α := .error (.plain .value message)

/-- The sign of a number, and the number without it; an empty text has none. -/
def signed (cs : List Char) : Except Trace (Int × List Char) :=
  match cs with
  | [] => .error (.plain (.system "IndexError") "string index out of range")
  | c :: rest => .ok (if c = '-' then -1 else 1, if c = '+' || c = '-' then rest else cs)

/-- The failure of a text that is no number in a base. -/
def notInteger {α : Type} (base : Nat) (cs : List Char) : Except Trace α :=
  badValue ("invalid literal for int() with base " ++ toString base ++ ": "
    ++ Text.Quoted.quote (String.ofList cs))

/-- The value of a digit of any script in a base. -/
def digitIn? (base : Nat) (c : Char) : Option Nat :=
  let value := match Text.digitValue? c with
    | some v => some v
    | none => if Text.isHexDigit c then some (Text.hexDigitValue c) else none
  value.bind fun v => if v < base then some v else none

/-- The mark that may stand in front of the digits of a base. -/
def baseMark (base : Nat) : List Char :=
  if base = 2 then ['b', 'B'] else if base = 8 then ['o', 'O'] else if base = 16 then ['x', 'X']
  else []

/-- A whole number in a base, blanks around it allowed. -/
def wholeNumber (base : Nat) (cs : List Char) : Except Trace Int :=
  let body := Text.strip cs
  let (sign, digits) : Int × List Char := match body with
    | '-' :: rest => (-1, rest)
    | '+' :: rest => (1, rest)
    | rest => (1, rest)
  let digits := match digits with
    | '0' :: m :: rest => if (baseMark base).contains m then rest else digits
    | digits => digits
  match digits.mapM (digitIn? base) with
  | some values =>
    if values.isEmpty then notInteger base cs
    else if base = 10 && Text.mostDigits < values.length then
      badValue (Text.tooManyDigits values.length)
    else .ok (sign * (values.foldl (fun n v => base * n + v) 0 : Nat))
  | none => notInteger base cs

/-- The value of numbers in base sixty, the highest first. -/
def sixties (parts : List Int) : Int := parts.foldl (fun n v => 60 * n + v) 0

/-- The integer of a text. -/
def integerOf (text : String) : Except Trace Int := do
  let (sign, cs) ← signed (text.toList.filter (· != '_'))
  let n ←
    if cs = ['0'] then pure 0
    else
      match cs with
      | '0' :: 'b' :: rest => wholeNumber 2 rest
      | '0' :: 'x' :: rest => wholeNumber 16 rest
      | '0' :: _ => wholeNumber 8 cs
      | [] => .error (.plain (.system "IndexError") "string index out of range")
      | _ =>
        if cs.contains ':' then do
          let parts ← (Text.cutAt ':' cs).mapM (wholeNumber 10)
          pure (sixties parts)
        else wholeNumber 10 cs
  pure (sign * n)

/-- Infinity. -/
def infinity : Float := 1.0 / 0.0

/-- A decimal number `digits * 10 ^ exponent`. -/
def scientific (digits : Nat) (exponent : Int) : Float :=
  let size : Int := (Nat.toDigits 10 digits).length + exponent
  if digits = 0 || size < -400 then 0.0
  else if 400 < size then infinity
  else Float.ofScientific digits (exponent < 0) exponent.natAbs

/-- The exponent of a decimal number, which may be missing. -/
def exponentOf (cs : List Char) : Option Int :=
  match cs with
  | [] => some 0
  | e :: rest =>
    if e = 'e' || e = 'E' then
      let (sign, digits) : Int × List Char := match rest with
        | '-' :: more => (-1, more)
        | '+' :: more => (1, more)
        | more => (1, more)
      if !digits.isEmpty && digits.all Char.isDigit then some (sign * Text.decimalValue digits)
      else none
    else none

/-- A decimal number without a sign. -/
def decimalOf (cs : List Char) : Option Float :=
  if ["inf", "infinity"].contains (String.ofList cs) then some infinity
  else if cs = "nan".toList then some (0.0 / 0.0)
  else
    let whole := cs.takeWhile Char.isDigit
    let rest := cs.drop whole.length
    let (fraction, rest) := match rest with
      | '.' :: more => (more.takeWhile Char.isDigit, more.dropWhile Char.isDigit)
      | rest => ([], rest)
    if whole.isEmpty && fraction.isEmpty then none
    else (exponentOf rest).map fun e =>
      scientific (Text.decimalValue (whole ++ fraction)) (e - fraction.length)

/-- A decimal number, a sign and blanks around it allowed. -/
def realNumber (cs : List Char) : Except Trace Float :=
  let found := match Text.strip cs with
    | '-' :: rest => (decimalOf rest).map fun x => -x
    | '+' :: rest => decimalOf rest
    | rest => decimalOf rest
  match found with
  | some x => .ok x
  | none =>
    badValue ("could not convert string to float: " ++ Text.Quoted.quote (String.ofList cs))

/-- The number with a point of a text. -/
def realOf (text : String) : Except Trace Float := do
  let low := Text.lower (String.ofList (text.toList.filter (· != '_')))
  let (sign, cs) ← signed low.toList
  let sign : Float := if sign < 0 then -1.0 else 1.0
  if cs = ".inf".toList then pure (sign * infinity)
  else if cs = ".nan".toList then pure (0.0 / 0.0)
  else if cs.contains ':' then do
    let parts ← (Text.cutAt ':' cs).mapM realNumber
    let (total, _) := parts.reverse.foldl
      (fun (acc : Float × Float) x => (acc.1 + x * acc.2, acc.2 * 60.0)) (0.0, 1.0)
    pure (sign * total)
  else do
    let x ← realNumber cs
    pure (sign * x)

/-- The zone of a time as minutes from universal time; a whole day or more is refused. -/
def zoneMinutes (z : Option (Bool × List Char × List Char)) : Except Trace Int :=
  match z with
  | none => .ok 0
  | some (west, hours, minutes) =>
    let size : Nat := Text.decimalValue hours * 60 + Text.decimalValue minutes
    let offset : Int := if west then -(size : Int) else size
    if 1440 ≤ size then
      badValue ("offset must be a timedelta strictly between -timedelta(hours=24) and "
        ++ "timedelta(hours=24), not " ++ Moment.spanLiteral offset ++ ".")
    else .ok offset

/-- The digits of a fraction of a second as microseconds. -/
def microseconds (fraction : List Char) : Nat :=
  let digits := fraction.take 6
  Text.decimalValue (digits ++ List.replicate (6 - digits.length) '0')

/-- The moment of a written date. -/
def Stamp.moment (s : Stamp) : Except Trace Moment := do
  let year := Text.decimalValue s.year
  let month := Text.decimalValue s.month
  let day := Text.decimalValue s.day
  let offset ← match s.zone with
    | some z => (zoneMinutes z).map some
    | none => pure none
  if year = 0 then badValue "year 0 is out of range"
  else if month = 0 || 12 < month then badValue "month must be in 1..12"
  else if day = 0 || Moment.daysIn year month < day then
    badValue "day is out of range for month"
  else
    match s.time with
    | none => pure { year, month, day }
    | some (hour, minute, second, fraction) =>
      let hour := Text.decimalValue hour
      let minute := Text.decimalValue minute
      let second := Text.decimalValue second
      if 23 < hour then badValue "hour must be in 0..23"
      else if 59 < minute then badValue "minute must be in 0..59"
      else if 59 < second then badValue "second must be in 0..59"
      else
        pure { year, month, day,
               time := some { hour, minute, second, micro := microseconds fraction, offset } }

/-- The moment of a text. -/
def momentOf (text : String) : Except Trace Moment :=
  match stampOf? text.toList with
  | some s => s.moment
  | none => .error (.plain .attribute "'NoneType' object has no attribute 'groupdict'")

/-- The truth value of a text. -/
def truthOf (text : String) : Except Trace Bool :=
  let low := Text.lower text
  match truthTexts.lookup low with
  | some b => .ok b
  | none => .error (.ofFailure (.missingKey low))

/-- The value of a scalar with a tag; nothing when scalars with this tag have none. -/
def scalarOf (tag text : String) : Option (Except Trace Key) :=
  if tag = standardTag "null" then some (.ok .null)
  else if tag = standardTag "bool" then some ((truthOf text).map .bool)
  else if tag = standardTag "int" then some ((integerOf text).map .int)
  else if tag = standardTag "float" then some ((realOf text).map fun x => .float x.toBits)
  else if tag = standardTag "timestamp" then some ((momentOf text).map .moment)
  else if tag = standardTag "str" then some (.ok (.str text))
  else none

end CodeHighlight.Yaml
