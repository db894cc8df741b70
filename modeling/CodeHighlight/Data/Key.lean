import CodeHighlight.Data.Moment
import CodeHighlight.Failure
import CodeHighlight.Text.Decimal
import CodeHighlight.Text.Digits

/-!
# Keys

The scalars that can be the key of a mapping. Two keys are the same when they have the same
identity: the truth values are the numbers one and zero, and a number is the same whether it is
written with a fraction or not.

Keys of one kind can be put in order, keys of different kinds cannot; `Key.sort` reports the first
two that cannot be compared.
-/

namespace CodeHighlight
open Text.Utf8 (Bytes)

/-- A scalar. A floating-point number is kept as its sixty-four bits. -/
inductive Key where
  | null
  | bool (b : Bool)
  | int (n : Int)
  | float (bits : UInt64)
  | moment (m : Moment)
  | str (s : String)
  | bytes (bs : Bytes)
  deriving Repr, DecidableEq

namespace Key

/-- What two keys share when they are the same. -/
inductive Identity where
  | null
  | integer (n : Int)
  | real (bits : UInt64)
  | moment (m : Moment)
  | str (s : String)
  | bytes (bs : Bytes)
  deriving DecidableEq

/-- The integer that a floating-point number is equal to. -/
def integerOfBits? (bits : UInt64) : Option Int :=
  let n := bits.toNat
  let size := n % Nat.pow 2 63
  if size / Nat.pow 2 52 = 2047 then none
  else
    let b := Text.Decimal.Binary.ofBits size
    let negative := Nat.pow 2 63 ≤ n
    let signed (k : Nat) : Int := if negative then -(k : Int) else k
    if 0 ≤ b.exponent then some (signed (b.significand * Nat.pow 2 b.exponent.toNat))
    else
      let d := Nat.pow 2 (-b.exponent).toNat
      if b.significand % d = 0 then some (signed (b.significand / d)) else none

/-- The identity of a key. -/
def identity : Key → Identity
  | .null => .null
  | .bool b => .integer (if b then 1 else 0)
  | .int n => .integer n
  | .float bits =>
    match integerOfBits? bits with
    | some n => .integer n
    | none => .real bits
  | .moment m => .moment m
  | .str s => .str s
  | .bytes bs => .bytes bs

/-- Two keys with one identity. -/
def same (a b : Key) : Bool := a.identity = b.identity

/-- The name of the kind of key. -/
def typeName : Key → String
  | .null => "NoneType"
  | .bool _ => "bool"
  | .int _ => "int"
  | .float _ => "float"
  | .moment m => m.typeName
  | .str _ => "str"
  | .bytes _ => "bytes"

/-- A key as a literal. -/
def literal : Key → String
  | .null => "None"
  | .bool b => if b then "True" else "False"
  | .int n => toString n
  | .float bits => Text.Decimal.text (Float.ofBits bits)
  | .moment m => m.literal
  | .str s => Text.Quoted.quote s
  | .bytes bs => Text.Quoted.quoteBytes bs

/-- A key as text: a string stands for itself. -/
def text : Key → String
  | .str s => s
  | .moment m => m.iso " "
  | k => k.literal

/-- Fails for a key that cannot be written out: an integer with too many digits. -/
def writable : Key → Except Trace Unit
  | .int n =>
    if Text.mostDigits < (Nat.toDigits 10 n.natAbs).length then
      .error (.plain .value Text.tooManyToWrite)
    else .ok ()
  | _ => .ok ()

/-- A string key. -/
def str? : Key → Option String
  | .str s => some s
  | _ => none

/-- A number for comparison. -/
def number? : Key → Option Float
  | .bool b => some (if b then 1 else 0)
  | .int n => some (Float.ofInt n)
  | .float bits => some (Float.ofBits bits)
  | _ => none

/-- An integer for comparison. -/
def integer? : Key → Option Int
  | .bool b => some (if b then 1 else 0)
  | .int n => some n
  | _ => none

/-- The first key is less than the second; nothing when they cannot be compared. -/
def less? (a b : Key) : Option Bool :=
  match a, b with
  | .str s, .str t => some (s < t)
  | .bytes s, .bytes t => some (s < t)
  | .moment s, .moment t =>
    if s.time.isSome = t.time.isSome then some (s.iso " " < t.iso " ") else none
  | a, b =>
    match a.integer?, b.integer? with
    | some m, some n => some (m < n)
    | _, _ =>
      match a.number?, b.number? with
      | some x, some y => some (x < y)
      | _, _ => none

/-- The first key is not greater than the second. -/
def atMost (a b : Key) : Bool := !((less? b a).getD false)

/-- Halve a stretch of sorted keys until the place of `k` in it is found. -/
def placeIn (k : Key) (sorted : List Key) : Nat → Nat → Nat → Except (Key × Key) Nat
  | 0, low, _ => .ok low
  | fuel + 1, low, high =>
    if high ≤ low then .ok low
    else
      let middle := (low + high) / 2
      let m := sorted.getD middle .null
      match less? k m with
      | none => .error (k, m)
      | some true => placeIn k sorted fuel low middle
      | some false => placeIn k sorted fuel (middle + 1) high

/-- Insert the remaining keys into sorted ones, each at the place found by halving. -/
def insertAll (sorted : List Key) : List Key → Except (Key × Key) (List Key)
  | [] => .ok sorted
  | k :: rest =>
    match placeIn k sorted (sorted.length + 1) 0 sorted.length with
    | .error pair => .error pair
    | .ok i => insertAll (sorted.take i ++ k :: sorted.drop i) rest

/-- The run of keys at the start that rises (or falls strictly, when `falling`), behind the keys
`run` (latest first), and the keys after it. -/
def initialRun (falling : Bool) (run : List Key) (last : Key) :
    List Key → Except (Key × Key) (List Key × List Key)
  | [] => .ok (run, [])
  | k :: rest =>
    match less? k last with
    | none => .error (k, last)
    | some less =>
      if less = falling then initialRun falling (k :: run) k rest else .ok (run, k :: rest)

/-- Keys in order. The run at the start is taken first, then each further key finds its place by
halving; the first comparison that is impossible is reported. -/
def sortKeys : List Key → Except (Key × Key) (List Key)
  | [] => .ok []
  | [k] => .ok [k]
  | a :: b :: rest =>
    match less? b a with
    | none => .error (b, a)
    | some falling =>
      match initialRun falling [b, a] b rest with
      | .error pair => .error pair
      | .ok (run, rest) => insertAll (if falling then run else run.reverse) rest

/-- Keys in order; keys that cannot be compared are a failure. -/
def sort (keys : List Key) : Except Trace (List Key) :=
  match sortKeys keys with
  | .ok sorted => .ok sorted
  | .error (a, b) =>
    .error (.plain .type ("'<' not supported between instances of '" ++ a.typeName ++ "' and '"
      ++ b.typeName ++ "'"))

/-- String keys joined by commas; other keys are a failure. -/
def joinTexts (keys : List Key) : Except Trace String :=
  match keys.findIdx? fun k => k.str?.isNone with
  | none => .ok (", ".intercalate (keys.filterMap str?))
  | some i =>
    .error (.plain .type ("sequence item " ++ toString i ++ ": expected str instance, "
      ++ (keys.getD i .null).typeName ++ " found"))

end Key

instance : BEq Key := ⟨Key.same⟩

end CodeHighlight
