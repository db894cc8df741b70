/-!
# Dates and times

A day of the calendar, with or without a time of day and an offset from universal time.
-/

namespace CodeHighlight

/-- A time of day with microseconds and, if known, the offset from universal time in minutes. -/
structure TimeOfDay where
  hour : Nat
  minute : Nat
  second : Nat
  micro : Nat := 0
  offset : Option Int := none
  deriving DecidableEq, Repr

/-- A day, with or without a time of day. -/
structure Moment where
  year : Nat
  month : Nat
  day : Nat
  time : Option TimeOfDay := none
  deriving DecidableEq, Repr

namespace Moment

/-- A number with at least `width` digits. -/
def padded (width n : Nat) : String :=
  let digits := (Nat.repr n).toList
  String.ofList (List.replicate (width - digits.length) '0' ++ digits)

/-- An offset as hours and minutes with a sign. -/
def offsetText (minutes : Int) : String :=
  let n := minutes.natAbs
  (if minutes < 0 then "-" else "+") ++ padded 2 (n / 60) ++ ":" ++ padded 2 (n % 60)

/-- The time of day; microseconds are shown only when there are some. -/
def timeText (t : TimeOfDay) : String :=
  padded 2 t.hour ++ ":" ++ padded 2 t.minute ++ ":" ++ padded 2 t.second
    ++ (if t.micro = 0 then "" else "." ++ padded 6 t.micro)
    ++ (t.offset.map offsetText).getD ""

/-- Year, month and day joined by hyphens, then the time of day after `sep`. -/
def iso (sep : String) (m : Moment) : String :=
  padded 4 m.year ++ "-" ++ padded 2 m.month ++ "-" ++ padded 2 m.day
    ++ (m.time.map fun t => sep ++ timeText t).getD ""

/-- A leap year has a multiple of four that is no century, or a multiple of 400. -/
def isLeap (year : Nat) : Bool := year % 4 == 0 && (year % 100 != 0 || year % 400 == 0)

/-- The number of days of a month. -/
def daysIn (year month : Nat) : Nat :=
  if month = 2 then (if isLeap year then 29 else 28)
  else if month = 4 || month = 6 || month = 9 || month = 11 then 30 else 31

/-- The name of the kind of moment. -/
def typeName (m : Moment) : String := if m.time.isSome then "datetime" else "date"

/-- A span of minutes as the literal that makes it: days and seconds, the seconds never negative. -/
def spanLiteral (minutes : Int) : String :=
  let days := Int.fdiv minutes 1440
  let seconds := Int.fmod minutes 1440 * 60
  let parts := (if days = 0 then [] else ["days=" ++ toString days])
    ++ (if seconds = 0 then [] else ["seconds=" ++ toString seconds])
  "datetime.timedelta(" ++ ", ".intercalate parts ++ ")"

/-- An offset as the literal that makes it. -/
def offsetLiteral (minutes : Int) : String :=
  if minutes = 0 then "datetime.timezone.utc"
  else "datetime.timezone(" ++ spanLiteral minutes ++ ")"

/-- A moment as the literal that makes it. -/
def literal (m : Moment) : String :=
  let day := [m.year, m.month, m.day].map Nat.repr
  match m.time with
  | none => "datetime.date(" ++ ", ".intercalate day ++ ")"
  | some t =>
    let tail :=
      if t.micro != 0 then [t.second, t.micro] else if t.second != 0 then [t.second] else []
    let offset := (t.offset.map fun o => ["tzinfo=" ++ offsetLiteral o]).getD []
    "datetime.datetime("
      ++ ", ".intercalate (day ++ ([t.hour, t.minute] ++ tail).map Nat.repr ++ offset) ++ ")"

end Moment

end CodeHighlight
