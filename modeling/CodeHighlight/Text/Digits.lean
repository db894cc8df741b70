/-!
# Digits

Numbers read from decimal and hexadecimal digits of ASCII.
-/

namespace CodeHighlight.Text

/-- A hexadecimal digit. -/
def isHexDigit (c : Char) : Bool :=
  c.isDigit || ('a' ≤ c && c ≤ 'f') || ('A' ≤ c && c ≤ 'F')

/-- The value of a hexadecimal digit. -/
def hexDigitValue (c : Char) : Nat :=
  if c.isDigit then c.toNat - 48 else c.toLower.toNat - 87

/-- The value of digits in a base. -/
def valueInBase (base : Nat) (digits : List Char) : Nat :=
  digits.foldl (fun n c => base * n + hexDigitValue c) 0

/-- The value of hexadecimal digits. -/
def hexValue (digits : List Char) : Nat := valueInBase 16 digits

/-- The value of decimal digits. -/
def decimalValue (digits : List Char) : Nat := valueInBase 10 digits

/-- The most decimal digits that a number may have. -/
def mostDigits : Nat := 4300

/-- The wording for a number with too many digits. -/
def tooManyDigits (count : Nat) : String :=
  "Exceeds the limit (" ++ toString mostDigits
    ++ " digits) for integer string conversion: value has " ++ toString count
    ++ " digits; use sys.set_int_max_str_digits() to increase the limit"

/-- The wording for a number that would have too many digits. -/
def tooManyToWrite : String :=
  "Exceeds the limit (" ++ toString mostDigits
    ++ " digits) for integer string conversion; "
    ++ "use sys.set_int_max_str_digits() to increase the limit"

end CodeHighlight.Text
