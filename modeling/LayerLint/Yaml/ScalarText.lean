import LayerLint.Text.Search
import LayerLint.Yaml.Error
import LayerLint.Yaml.Tag
import LayerLint.Yaml.Value

/-!
# Scalars from their text

`ofText` gives the scalar that a text stands for under a tag: whole numbers in four bases and in sixties,
floating-point numbers, dates and times, bytes in base 64.
-/

namespace LayerLint.Yaml

/-! ## Numbers -/

/-- The value of a digit in bases up to sixteen. -/
def digitValue (c : Char) : Nat :=
  if c.isDigit then c.toNat - '0'.toNat
  else if 'a' ≤ c ∧ c ≤ 'z' then c.toNat - 'a'.toNat + 10
  else if 'A' ≤ c ∧ c ≤ 'Z' then c.toNat - 'A'.toNat + 10
  else 99

/-- The number that digits of a base stand for. -/
def digitsValue (base : Nat) (digits : List Char) : Nat := digits.foldl (fun n c => base * n + digitValue c) 0

/-- The text without the letter that announces its base. -/
def dropBase (base : Nat) (s : List Char) : List Char :=
  let letters := if base = 2 then ['b', 'B'] else if base = 8 then ['o', 'O'] else if base = 16 then ['x', 'X'] else []
  match s with
  | '0' :: c :: r => if letters.contains c then r else s
  | _ => s

/-- Reads a whole number in a base, with a sign and blanks around it. In base ten the digits at the beginning are
counted before anything else is looked at. -/
def int (base : Nat) (s : List Char) : Except ReadError Int :=
  let t := Text.numeral s
  let digits := dropBase base (dropSign t)
  let isDigit := fun c => decide (digitValue c < base)
  let count := (digits.takeWhile isDigit).length
  if base = 10 ∧ Text.maxDigits < count then .error (.tooManyDigits count)
  else if allSome isDigit digits then
    let n : Int := digitsValue base digits
    .ok (if t.head? = some '-' then -n else n)
  else .error (.invalidInt base (String.ofList s))

/-- The pieces of a text between colons. -/
def colonParts (s : List Char) : List (List Char) := Text.splitAt ':' s

/-- The whole number written in groups of sixties. -/
def sixties (parts : List Int) : Int := parts.foldl (fun n part => 60 * n + part) 0

/-- The sign at the beginning of a text and what follows it. -/
def signed? : List Char → Option (Bool × List Char)
  | [] => none
  | '-' :: r => some (true, r)
  | '+' :: r => some (false, r)
  | s => some (false, s)

/-- The whole number that a text stands for; underscores between digits do not count. -/
def intOfText (s : List Char) : Except ReadError Int := do
  match signed? (s.filter (· != '_')) with
  | none => throw .emptyNumber
  | some (negative, body) =>
    let size ←
      match body with
      | ['0'] => pure 0
      | '0' :: 'b' :: r => int 2 r
      | '0' :: 'x' :: r => int 16 r
      | '0' :: _ => int 8 body
      | [] => throw .emptyNumber
      | _ => if body.contains ':' then do pure (sixties (← (colonParts body).mapM (int 10))) else int 10 body
    return if negative then -size else size

/-- Reads a decimal fraction, perhaps with an exponent. -/
def decimal? (s : List Char) : Option Binary64 :=
  let negative := s.head? = some '-'
  let body := dropSign s
  let whole := body.takeWhile Char.isDigit
  let rest := body.dropWhile Char.isDigit
  let (places, rest) := match rest with
    | '.' :: r => (r.takeWhile Char.isDigit, r.dropWhile Char.isDigit)
    | _ => ([], rest)
  if whole.isEmpty && places.isEmpty then none
  else
    let value := fun (exponent : Int) =>
      some (Binary64.ofDecimal negative (digitsValue 10 (whole ++ places)) (exponent - places.length))
    match rest with
    | [] => value 0
    | e :: r =>
      if (e == 'e' || e == 'E') && allSome Char.isDigit (dropSign r) then
        let size : Int := digitsValue 10 (dropSign r)
        value (if r.head? = some '-' then -size else size)
      else none

/-- Reads a floating-point number with blanks around it; infinity and the missing number are words. -/
def float (s : List Char) : Except ReadError Binary64 :=
  let t := Text.numeral s
  let word := (String.ofList (dropSign t)).toLower
  let negative := t.head? = some '-'
  if word == "inf" || word == "infinity" then .ok (.infinite negative)
  else if word == "nan" then .ok .nan
  else
    match decimal? t with
    | some x => .ok x
    | none => .error (.invalidFloat (String.ofList s))

/-- The floating-point number written in groups of sixties, summed from the last group on. The power of sixty of a
group has to be a floating-point number. -/
def sixtiesFloat (parts : List Binary64) : Except ReadError Binary64 := do
  let step := fun (sum : Binary64 × Int) (part : Binary64) =>
    match Binary64.ofInt? sum.2 with
    | some power => Except.ok (sum.1.add (part.mul power), sum.2 * 60)
    | none => .error .hugeSixties
  return (← parts.reverse.foldlM step (Binary64.zero false, 1)).1

/-- The sign of a floating-point number and what follows it; underscores between digits and capitals do not count. -/
def floatSigned? (s : List Char) : Option (Bool × List Char) := signed? ((s.filter (· != '_')).map Char.toLower)

/-- The word for the number that is missing. -/
def missingWord : List Char := ".nan".toList

/-- The floating-point number that a text stands for. -/
def floatOfText (s : List Char) : Except ReadError Binary64 := do
  match floatSigned? s with
  | none => throw .emptyNumber
  | some (negative, body) =>
    let size ←
      if body = ".inf".toList then pure (.infinite false)
      else if body = missingWord then pure .nan
      else if body.contains ':' then do sixtiesFloat (← (colonParts body).mapM float)
      else float body
    return if negative then size.neg else size

/-! ## Dates and bytes -/

/-- The fraction of a second in microseconds. -/
def microseconds (fraction : List Char) : Nat :=
  let digits := fraction.take 6
  digitsValue 10 (digits ++ List.replicate (6 - digits.length) '0')

/-- The distance from universal time in minutes. -/
def zoneMinutes (zone : Char × List Char × List Char) : Int :=
  let (sign, hours, minutes) := zone
  let size : Int := 60 * digitsValue 10 hours + digitsValue 10 minutes
  if sign = '-' then -size else size

/-- The date or time with the given fields. -/
def timeOfFields (fields : DateFields) : Except DateError Scalar :=
  let number := digitsValue 10
  match fields.time with
  | none => (Date.make (number fields.year) (number fields.month) (number fields.day)).map .date
  | some t =>
    (Timestamp.make (number fields.year) (number fields.month) (number fields.day) (number t.hour) (number t.minute)
      (number t.second) (microseconds t.fraction) (t.zone.map zoneMinutes)).map .timestamp

/-- The six bits of a character of base 64. -/
def sixBits? (c : Char) : Option Nat :=
  if 'A' ≤ c ∧ c ≤ 'Z' then some (c.toNat - 'A'.toNat)
  else if 'a' ≤ c ∧ c ≤ 'z' then some (c.toNat - 'a'.toNat + 26)
  else if c.isDigit then some (c.toNat - '0'.toNat + 52)
  else if c = '+' then some 62
  else if c = '/' then some 63
  else none

/-- Reads base 64 from a place among four characters, with the bits carried over and the padding seen. Other
characters are passed over; padding that completes the four ends the text. -/
def base64From (place carry pads : Nat) : List Char → Option (List UInt8)
  | [] => if place = 0 then some [] else none
  | c :: r =>
    if c = '=' then
      if 2 ≤ place ∧ 4 ≤ place + pads + 1 then some []
      else base64From place carry (if 2 ≤ place then pads + 1 else pads) r
    else
      match sixBits? c with
      | none => base64From place carry pads r
      | some bits =>
        match place with
        | 0 => base64From 1 bits 0 r
        | 1 => (base64From 2 (bits % 16) 0 r).map ((carry * 4 + bits / 16).toUInt8 :: ·)
        | 2 => (base64From 3 (bits % 4) 0 r).map ((carry * 16 + bits / 4).toUInt8 :: ·)
        | _ => (base64From 0 0 0 r).map ((carry * 64 + bits).toUInt8 :: ·)

/-- The bytes that a text in base 64 stands for. -/
def base64? (s : List Char) : Option (List UInt8) :=
  if s.all (·.toNat < 0x80) then base64From 0 0 0 s else none

/-! ## Scalars -/

/-- The spellings of truth values where a node is marked as one: capitals do not count. -/
def truthOfWord? (word : String) : Option Bool := truthWords.lookup word.toLower

/-- The number of a text at the part with a mark. Only the word for the number that is missing gives that of the
language. -/
def Scalar.ofNumber (mark : Nat) (s : List Char) (x : Binary64) : Scalar :=
  if x = .nan ∧ (floatSigned? s).map (·.2) ≠ some missingWord then .strayNan mark else .float x

/-- The scalar that a text stands for under a tag, at the part with a mark. -/
def Scalar.ofText (mark : Nat) (tag : Tag) (s : String) : Except ReadError Scalar :=
  match tag with
  | .null => .ok .null
  | .bool =>
    match truthOfWord? s with
    | some b => .ok (.bool b)
    | none => .error (.unknownTruthWord s.toLower)
  | .int => (intOfText s.toList).map .int
  | .float => (floatOfText s.toList).map (.ofNumber mark s.toList)
  | .timestamp =>
    match dateFields? s.toList with
    | some fields => (timeOfFields fields).mapError .invalidDate
    | none => .error .noTimestamp
  | .binary =>
    match base64? s.toList with
    | some found => .ok (.bytes found)
    | none => .error .malformed
  | .text => .ok (.text s)
  | _ => .error .malformed

end LayerLint.Yaml
