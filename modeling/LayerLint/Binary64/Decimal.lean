import LayerLint.Binary64.Basic

/-!
# Decimal text of floating-point numbers

`ofDecimal` reads a decimal fraction to the nearest number. `shortest` gives the fewest digits that read back
as the number, and of those the nearest to it; `fixed` gives a number of decimal places, rounded from the exact
value with ties to the even digit.
-/

namespace LayerLint.Binary64

/-- The number nearest to ± digits · 10^exponent. Beyond 400 places the answer is known without computing the
power: such a number is infinite or zero. -/
def ofDecimal (negative : Bool) (digits : Nat) (exponent : Int) : Binary64 :=
  if digits = 0 then zero negative
  else
    let size : Int := (Nat.toDigits 10 digits).length
    if 400 < exponent + size then .infinite negative
    else if exponent + size < -400 then zero negative
    else if 0 ≤ exponent then ofRatio negative (digits * Nat.pow 10 exponent.toNat) 1
    else ofRatio negative digits (Nat.pow 10 (-exponent).toNat)

/-- Whole digits and the power of ten of their last place. -/
structure Digits where
  coefficient : Nat
  exponent : Int
deriving DecidableEq, Repr

/-- The interval of reals that round to a mantissa and exponent: twice its middle and ends, as multiples of
2^(e-2), and whether the ends belong to it. -/
structure Interval where
  low : Nat
  middle : Nat
  high : Nat
  closed : Bool
deriving DecidableEq, Repr

/-- The reals that round to `m · 2^e`. Below a power of two the numbers lie twice as dense. -/
def roundingInterval (m : Nat) (e : Int) : Interval :=
  { low := if m = Nat.pow 2 52 ∧ minExponent < e then 4 * m - 1 else 4 * m - 2
    middle := 4 * m
    high := 4 * m + 2
    closed := m % 2 == 0 }

/-- The multiple `c` of a unit lies in the interval, where the interval counts in `num / den` of a unit. -/
def Interval.contains (i : Interval) (num den c : Nat) : Bool :=
  let x := c * den
  if i.closed then decide (i.low * num ≤ x ∧ x ≤ i.high * num) else decide (i.low * num < x ∧ x < i.high * num)

/-- The multiple of the unit that stands for the interval: one of the two next to its middle, if it lies in the
interval; of two the nearer, of equally near ones the even one. -/
def Interval.pick? (i : Interval) (num den : Nat) : Option Nat :=
  let below := i.middle * num / den
  let gapBelow := i.middle * num - below * den
  let gapAbove := (below + 1) * den - i.middle * num
  match i.contains num den below && below != 0, i.contains num den (below + 1) with
  | true, true =>
    some (if gapBelow < gapAbove ∨ (gapBelow = gapAbove ∧ below % 2 = 0) then below else below + 1)
  | true, false => some below
  | false, true => some (below + 1)
  | false, false => none

/-- The size of `10^exponent` against `2^(e-2)`, as a fraction: how many of the second make one of the first,
turned round. -/
def unitRatio (e exponent : Int) : Nat × Nat :=
  let (tenNum, tenDen) := if 0 ≤ exponent then (Nat.pow 10 exponent.toNat, 1) else (1, Nat.pow 10 (-exponent).toNat)
  let f := e - 2
  if 0 ≤ f then (Nat.pow 2 f.toNat * tenDen, tenNum) else (tenDen, tenNum * Nat.pow 2 (-f).toNat)

/-- The exponent of the first decimal digit of `m · 2^e`: the number lies between its power of ten and the
next. -/
def leadingExponent (m : Nat) (e : Int) : Int :=
  let (num, den) := ratio m e
  let whole := num / den
  if whole ≠ 0 then ((Nat.toDigits 10 whole).length : Int) - 1
  else
    -- the number of digits of den / num, rounded up, is the number of places to the first digit
    let places := (Nat.toDigits 10 ((den - 1) / num)).length
    Int.negOfNat places

/-- Tries grids of more and more digits. -/
def searchDigits (i : Interval) (e lead : Int) : List Nat → Digits
  | [] => ⟨i.middle, e - 2⟩
  | n :: rest =>
    let exponent := lead + 1 - (n : Int)
    let (num, den) := unitRatio e exponent
    match i.pick? num den with
    | some c => ⟨c, exponent⟩
    | none => searchDigits i e lead rest

/-- The fewest digits that read back as `m · 2^e`. Seventeen are always enough. -/
def shortest (m : Nat) (e : Int) : Digits :=
  if m = 0 then ⟨0, 0⟩
  else searchDigits (roundingInterval m e) e (leadingExponent m e) ((List.range 17).map (· + 1))

/-- The digits without the zeros at their end; each step removes one place, so the number of places bounds the
steps. -/
def dropZeros : Nat → Digits → Digits
  | 0, d => d
  | steps + 1, d =>
    if d.coefficient ≠ 0 ∧ d.coefficient % 10 = 0 then dropZeros steps ⟨d.coefficient / 10, d.exponent + 1⟩ else d

/-- The decimal digits of a number as text. -/
def digitText (n : Nat) : String := String.ofList (Nat.toDigits 10 n)

/-- That many zeros. -/
def zeros (n : Nat) : String := String.ofList (List.replicate n '0')

/-- Digits with a decimal point and at least one digit on both sides of it. -/
def positional (d : Digits) : String :=
  let text := digitText d.coefficient
  if 0 ≤ d.exponent then text ++ zeros d.exponent.toNat ++ ".0"
  else
    let places := (-d.exponent).toNat
    if text.length ≤ places then "0." ++ zeros (places - text.length) ++ text
    else
      let whole := text.length - places
      String.ofList (text.toList.take whole) ++ "." ++ String.ofList (text.toList.drop whole)

/-- Digits with one of them before the point, and the power of ten behind an `e`, in two digits or more. -/
def scientific (d : Digits) : String :=
  let text := (digitText d.coefficient).toList
  let power := d.exponent + (text.length - 1 : Nat)
  let size := digitText power.natAbs
  let exponent := (if power < 0 then "-" else "+") ++ (if size.length < 2 then "0" ++ size else size)
  String.ofList (text.take 1) ++ (if text.length ≤ 1 then "" else "." ++ String.ofList (text.drop 1)) ++ "e" ++
    exponent

/-- The text of a number in the shortest digits that read back: with a decimal point if the first digit stands
at 10^-4 to 10^15, with an exponent otherwise. -/
def toText : Binary64 → String
  | .nan => "nan"
  | .infinite s => (if s then "-" else "") ++ "inf"
  | .finite s m e =>
    let d := dropZeros 400 (shortest m e)
    let lead := d.exponent + ((digitText d.coefficient).length - 1 : Nat)
    (if s then "-" else "") ++ (if -4 ≤ lead ∧ lead < 16 then positional d else scientific d)

instance : ToString Binary64 := ⟨toText⟩

/-- The text of a number with that many decimal places, a half going to the even digit. -/
def fixed (places : Nat) : Binary64 → String
  | .nan => "nan"
  | .infinite s => (if s then "-" else "") ++ "inf"
  | .finite s m e =>
    let (num, den) := ratio m e
    let rounded := roundQuotient (num * Nat.pow 10 places) den
    let text := digitText rounded
    let text := zeros (places + 1 - text.length) ++ text
    let whole := text.length - places
    (if s then "-" else "") ++ String.ofList (text.toList.take whole) ++
      (if places = 0 then "" else "." ++ String.ofList (text.toList.drop whole))

end LayerLint.Binary64
