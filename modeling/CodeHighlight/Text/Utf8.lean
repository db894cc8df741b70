/-!
# UTF-8

Texts as bytes. `encode` writes, `decode` reads and refuses malformed bytes with the position and
the kind of the first fault, and `decodeLossy` reads everything, writing the replacement character
for each faulty stretch. A faulty stretch is the longest start of a well-formed sequence, or one
byte when there is none.
-/

namespace CodeHighlight.Text.Utf8

/-- A text as bytes. -/
abbrev Bytes := List UInt8

/-- The bytes of a text. -/
def encode (cs : List Char) : Bytes := cs.flatMap String.utf8EncodeChar

/-- The bytes of a string. -/
def ofString (s : String) : Bytes := encode s.toList

/-- What is wrong with a faulty stretch of bytes. -/
inductive Fault where
  | start
  | continuation
  | truncated
  deriving DecidableEq, Repr

/-- A faulty stretch: its first byte, the position of that byte, its length, and the fault. -/
structure Error where
  byte : UInt8
  position : Nat
  length : Nat
  fault : Fault
  deriving DecidableEq, Repr

/-- One reading step: a character with the number of bytes after its first, or a faulty stretch. -/
inductive Step where
  | char (c : Char) (extra : Nat)
  | bad (extra : Nat) (fault : Fault)

/-- A byte that continues a sequence. -/
def isContinuation (b : UInt8) : Bool := 0x80 ≤ b && b < 0xc0

/-- A byte that may follow the first byte of a sequence of three: no longer form of a shorter
sequence, no surrogate. -/
def isSecondOfThree (first b : UInt8) : Bool :=
  isContinuation b && !(first == 0xe0 && b < 0xa0) && !(first == 0xed && 0xa0 ≤ b)

/-- A byte that may follow the first byte of a sequence of four: no longer form of a shorter
sequence, nothing beyond the last code point. -/
def isSecondOfFour (first b : UInt8) : Bool :=
  isContinuation b && !(first == 0xf0 && b < 0x90) && !(first == 0xf4 && 0x90 ≤ b)

/-- The low six bits of a continuation byte. -/
def payload (b : UInt8) : Nat := b.toNat % 64

/-- Read the sequence that starts with the byte `first` and goes on in `rest`. -/
def step (first : UInt8) (rest : Bytes) : Step :=
  if first < 0x80 then .char (Char.ofNat first.toNat) 0
  else if first < 0xc2 then .bad 0 .start
  else if first < 0xe0 then
    match rest with
    | [] => .bad 0 .truncated
    | b :: _ =>
      if isContinuation b then .char (Char.ofNat (first.toNat % 32 * 64 + payload b)) 1
      else .bad 0 .continuation
  else if first < 0xf0 then
    match rest with
    | [] => .bad 0 .truncated
    | [b] => if isSecondOfThree first b then .bad 1 .truncated else .bad 0 .continuation
    | b :: c :: _ =>
      if !isSecondOfThree first b then .bad 0 .continuation
      else if !isContinuation c then .bad 1 .continuation
      else .char (Char.ofNat (first.toNat % 16 * 4096 + payload b * 64 + payload c)) 2
  else if first < 0xf5 then
    match rest with
    | [] => .bad 0 .truncated
    | [b] => if isSecondOfFour first b then .bad 1 .truncated else .bad 0 .continuation
    | [b, c] =>
      if !isSecondOfFour first b then .bad 0 .continuation
      else if !isContinuation c then .bad 1 .continuation
      else .bad 2 .truncated
    | b :: c :: d :: _ =>
      if !isSecondOfFour first b then .bad 0 .continuation
      else if !isContinuation c then .bad 1 .continuation
      else if !isContinuation d then .bad 2 .continuation
      else .char
        (Char.ofNat (first.toNat % 8 * 262144 + payload b * 4096 + payload c * 64 + payload d)) 3
  else .bad 0 .start

/-- Read bytes that start at a position, or report the first faulty stretch. -/
def decodeFrom (position : Nat) : Bytes → Except Error (List Char)
  | [] => .ok []
  | first :: rest =>
    match step first rest with
    | .char c extra =>
      match decodeFrom (position + 1 + extra) (rest.drop extra) with
      | .ok cs => .ok (c :: cs)
      | .error e => .error e
    | .bad extra fault => .error ⟨first, position, extra + 1, fault⟩
termination_by bs => bs.length
decreasing_by simp only [List.length_drop, List.length_cons]; omega

/-- Read bytes, or report the first faulty stretch. -/
def decode (bs : Bytes) : Except Error String := (decodeFrom 0 bs).map String.ofList

/-- Read bytes, with the replacement character for each faulty stretch. -/
def decodeLossyList : Bytes → List Char
  | [] => []
  | first :: rest =>
    match step first rest with
    | .char c extra => c :: decodeLossyList (rest.drop extra)
    | .bad extra _ => Char.ofNat 0xfffd :: decodeLossyList (rest.drop extra)
termination_by bs => bs.length
decreasing_by all_goals (simp only [List.length_drop, List.length_cons]; omega)

/-- Read bytes into a string, with the replacement character for each faulty stretch. -/
def decodeLossy (bs : Bytes) : String := String.ofList (decodeLossyList bs)

/-- A number in lower-case hexadecimal, with at least `width` digits. -/
def hex (width n : Nat) : String :=
  let digits := (Nat.toDigits 16 n).map fun c => c.toLower
  String.ofList (List.replicate (width - digits.length) '0' ++ digits)

/-- The wording of a fault. -/
def Fault.message : Fault → String
  | .start => "invalid start byte"
  | .continuation => "invalid continuation byte"
  | .truncated => "unexpected end of data"

/-- The wording of an error: one byte is shown, several are given by their positions. -/
def Error.message (e : Error) : String :=
  (if e.length == 1 then
    "'utf-8' codec can't decode byte 0x" ++ hex 2 e.byte.toNat ++ " in position "
      ++ toString e.position
  else
    "'utf-8' codec can't decode bytes in position " ++ toString e.position ++ "-"
      ++ toString (e.position + e.length - 1))
    ++ ": " ++ e.fault.message

/-- The bytes from one position up to another. -/
def slice (bs : Bytes) (start stop : Nat) : Bytes := (bs.drop start).take (stop - start)

/-- A position where a negative number counts from the end, kept within the bytes. -/
def place (size : Nat) (i : Int) : Nat :=
  if i < 0 then (i + size).toNat else min i.toNat size

/-- The bytes between two positions, negative ones counting from the end; empty when they are
reversed. -/
def sliceWrapped (bs : Bytes) (start stop : Int) : Bytes :=
  slice bs (place bs.length start) (place bs.length stop)

end CodeHighlight.Text.Utf8
