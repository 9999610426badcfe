import LayerLint.Binary64.Decimal
import LayerLint.Text.Blank
import LayerLint.Text.Search

/-!
# What a coverage run prints

The leftmost `coverage:` that is followed by white space, a decimal number and a percent sign gives the coverage
of a package. A run that prints none, or that reports no test files, found no tests.
-/

namespace LayerLint.Coverage

/-- The longest run of decimal digits at the beginning, and the rest. -/
def spanDigits (s : List Char) : List Char × List Char := (s.takeWhile Char.isDigit, s.dropWhile Char.isDigit)

/-- The whole number that decimal digits stand for. -/
def digitsValue (digits : List Char) : Nat := digits.foldl (fun n c => 10 * n + (c.toNat - '0'.toNat)) 0

/-- Reads a decimal number with a percent sign at the beginning: digits, and a point with further digits if
there is one. -/
def percent? (s : List Char) : Option Binary64 :=
  match spanDigits s with
  | ([], _) => none
  | (whole, '%' :: _) => some (.ofDecimal false (digitsValue whole) 0)
  | (whole, '.' :: r) =>
    match spanDigits r with
    | ([], _) => none
    | (places, '%' :: _) =>
      some (.ofDecimal false (digitsValue (whole ++ places)) (-(places.length : Int)))
    | _ => none
  | _ => none

/-- The word before a coverage number. -/
def keyword : List Char := "coverage:".toList

/-- Reads the keyword, white space and a percentage at the beginning. -/
def percentHere? (s : List Char) : Option Binary64 :=
  if keyword.isPrefixOf s then
    match s.drop keyword.length with
    | c :: r => if Text.isBlank c then percent? (r.dropWhile Text.isBlank) else none
    | [] => none
  else none

/-- The leftmost percentage. -/
def findPercent? : List Char → Option Binary64
  | [] => none
  | c :: r =>
    match percentHere? (c :: r) with
    | some x => some x
    | none => findPercent? r

/-- The text that reports a package without tests. -/
def noTestFiles : String := "no test files"

/-- The coverage in percent and whether the package has tests. -/
def parseOutput (output : String) : Binary64 × Bool :=
  if Text.contains output noTestFiles then (Binary64.zero false, false)
  else
    match findPercent? output.toList with
    | some x => (x, true)
    | none => (Binary64.zero false, false)

end LayerLint.Coverage
