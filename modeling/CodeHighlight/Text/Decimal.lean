/-!
# Shortest decimal text of a double

A finite double is `m * 2 ^ q` with natural `m`. The reals that round to it form an interval around
it, its ends included when `m` is even. Among the decimal numbers of the interval the one with the
fewest digits is written, and of those the nearest to the double.
-/

namespace CodeHighlight.Text.Decimal

/-- The size of a finite double: `significand * 2 ^ exponent`. The lower half of its interval is
narrower when it is the least double of its binade. -/
structure Binary where
  significand : Nat
  exponent : Int
  narrowBelow : Bool

/-- The size of a double from its sixty-four bits, the sign left out. -/
def Binary.ofBits (bits : Nat) : Binary :=
  let fraction : Nat := bits % Nat.pow 2 52
  let biased : Nat := bits / Nat.pow 2 52 % Nat.pow 2 11
  if biased == 0 then ⟨fraction, -1074, false⟩
  else ⟨fraction + Nat.pow 2 52, (biased : Int) - 1075, fraction == 0 && biased > 1⟩

/-- Decimal digits `d₁ d₂ …` for the number `0.d₁d₂… * 10 ^ point`. -/
structure Digits where
  digits : List Char
  point : Int

/-- `10 ^ e` as a fraction. -/
def tenPower (e : Int) : Nat × Nat := (Nat.pow 10 e.toNat, Nat.pow 10 (-e).toNat)

/-- The fewest digits that read back as the double; of equally few the nearest. -/
def shortest (b : Binary) : Digits :=
  let up := Nat.pow 2 (b.exponent - 2).toNat
  let den := Nat.pow 2 (2 - b.exponent).toNat
  let value := 4 * b.significand * up
  let low := (4 * b.significand - (if b.narrowBelow then 1 else 2)) * up
  let high := (4 * b.significand + 2) * up
  let closed := b.significand % 2 == 0
  -- the least `p` with `value < 10 ^ p`
  let p : Int := match (List.range 640).find? fun (i : Nat) =>
      let (n, d) := tenPower ((i : Int) - 325)
      value * d < n * den with
    | some i => (i : Int) - 325
    | none => 315
  let attempt (n : Nat) : Option Digits :=
    let (gn, gd) := tenPower (p - n)
    let inside (c : Nat) : Bool :=
      let x := c * gn * den
      if closed then low * gd ≤ x && x ≤ high * gd else low * gd < x && x < high * gd
    let c := value * gd / (gn * den)
    let answer (c : Nat) : Digits :=
      let ds := Nat.toDigits 10 c
      ⟨ds, p - n + ds.length⟩
    if inside c then
      if inside (c + 1) && 2 * (value * gd) > (2 * c + 1) * (gn * den) then some (answer (c + 1))
      else some (answer c)
    else if inside (c + 1) then some (answer (c + 1))
    else none
  match (List.range 17).findSome? fun i => attempt (i + 1) with
  | some d => d
  | none => ⟨['0'], 1⟩

/-- Digits in positional notation when the number is at least `10 ^ -4` and below `10 ^ 16`, with an
exponent of at least two digits otherwise. -/
def Digits.toText (d : Digits) : String :=
  let ds := (d.digits.reverse.dropWhile (· == '0')).reverse
  let ds := if ds.isEmpty then ['0'] else ds
  let zeros (n : Int) : List Char := List.replicate n.toNat '0'
  if d.point ≤ -4 || 16 < d.point then
    let e := d.point - 1
    let ex := Nat.toDigits 10 e.natAbs
    let mantissa := match ds with
      | [x] => [x]
      | x :: more => x :: '.' :: more
      | [] => []
    String.ofList (mantissa ++ ['e', if e < 0 then '-' else '+']
      ++ zeros (2 - (ex.length : Int)) ++ ex)
  else if d.point ≤ 0 then String.ofList ("0.".toList ++ zeros (-d.point) ++ ds)
  else if (ds.length : Int) ≤ d.point then
    String.ofList (ds ++ zeros (d.point - ds.length) ++ ".0".toList)
  else String.ofList (ds.take d.point.toNat ++ ['.'] ++ ds.drop d.point.toNat)

/-- A double as text. -/
def text (x : Float) : String :=
  if x.isNaN then "nan"
  else
    let bits := x.toBits.toNat
    let sign := if bits ≥ Nat.pow 2 63 then "-" else ""
    let size := bits % Nat.pow 2 63
    if x.isInf then sign ++ "inf"
    else if size == 0 then sign ++ "0.0"
    else sign ++ (shortest (Binary.ofBits size)).toText

end CodeHighlight.Text.Decimal
