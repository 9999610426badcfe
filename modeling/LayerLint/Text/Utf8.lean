/-!
# Reading UTF-8

Bytes that are valid UTF-8 are a text. Of others, `DecodeError` says where the first invalid sequence is and what
is wrong with it.
-/

namespace LayerLint.Text

/-- What is wrong with a sequence of bytes. -/
inductive DecodeFault where
  | start
  | continuation
  | truncated
deriving DecidableEq, Repr

/-- The first invalid sequence of bytes. -/
structure DecodeError where
  fault : DecodeFault
  /-- The first byte of the sequence. -/
  byte : UInt8
  /-- Its place, counted from zero. -/
  position : Nat
  /-- The number of bytes that belong to the sequence. -/
  length : Nat
deriving DecidableEq, Repr

namespace DecodeError

/-- The wording of the fault. -/
def reason : DecodeFault → String
  | .start => "invalid start byte"
  | .continuation => "invalid continuation byte"
  | .truncated => "unexpected end of data"

/-- The message about bytes that are no text. -/
def message (e : DecodeError) : String :=
  let position := e.position
  let last := e.position + e.length - 1
  let digits := Nat.toDigits 16 e.byte.toNat
  let byte := String.ofList (List.replicate (2 - digits.length) '0' ++ digits)
  (if e.length = 1 then s!"'utf-8' codec can't decode byte 0x{byte} in position {position}: "
    else s!"'utf-8' codec can't decode bytes in position {position}-{last}: ") ++ reason e.fault

end DecodeError

/-- The byte continues a sequence. -/
def isContinuation (b : UInt8) : Bool := 0x80 ≤ b && b ≤ 0xBF

/-- The byte can stand second in a sequence with the given first byte: not so for encodings that are too long,
surrogates and numbers beyond the last code point. -/
def isSecond (first b : UInt8) : Bool :=
  isContinuation b &&
    !((first == 0xE0 && b < 0xA0) || (first == 0xED && 0xA0 ≤ b) || (first == 0xF0 && b < 0x90) ||
      (first == 0xF4 && 0x90 ≤ b))

/-- The number of bytes in a sequence with the given first byte, if there is one. -/
def sequenceLength? (first : UInt8) : Option Nat :=
  if first < 0x80 then some 1
  else if first < 0xC2 then none
  else if first < 0xE0 then some 2
  else if first < 0xF0 then some 3
  else if first < 0xF5 then some 4
  else none

/-- Examines the bytes after the first one of a sequence, of which `wanted` more are needed and `seen` are read:
the fault and the number of bytes it covers. -/
def continuationFault? (first : UInt8) (seen : Nat) : Nat → List UInt8 → Option (DecodeFault × Nat)
  | 0, _ => none
  | _ + 1, [] => some (.truncated, seen)
  | wanted + 1, b :: r =>
    if (if seen = 1 then isSecond first b else isContinuation b) then continuationFault? first (seen + 1) wanted r
    else some (.continuation, seen)

/-- The first invalid sequence. The first `skip` bytes belong to a sequence that is already read. -/
def firstFault? (position : Nat) : Nat → List UInt8 → Option DecodeError
  | _, [] => none
  | skip + 1, _ :: r => firstFault? (position + 1) skip r
  | 0, b :: r =>
    match sequenceLength? b with
    | none => some ⟨.start, b, position, 1⟩
    | some n =>
      match continuationFault? b 1 (n - 1) r with
      | some (fault, length) => some ⟨fault, b, position, length⟩
      | none => firstFault? (position + 1) (n - 1) r

/-- The text that bytes stand for. -/
def decode (bytes : ByteArray) : Except DecodeError String :=
  match String.fromUTF8? bytes with
  | some text => .ok text
  | none => .error ((firstFault? 0 0 bytes.toList).getD ⟨.start, 0, 0, 1⟩)

end LayerLint.Text
