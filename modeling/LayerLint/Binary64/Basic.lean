/-!
# 64-bit floating-point numbers

Numbers of the format binary64 as exact data: a sign, a whole mantissa below 2^53 and a power of two. Every
operation computes an exact fraction and rounds it once to the nearest number (`ofRatio`), ties going to the
even mantissa (`roundQuotient`).
-/

namespace LayerLint

/-- A number of the format binary64. `finite s m e` stands for ± m · 2^e. -/
inductive Binary64 where
  | finite (negative : Bool) (mantissa : Nat) (exponent : Int)
  | infinite (negative : Bool)
  | nan
deriving DecidableEq, Repr

namespace Binary64

/-- The whole number nearest to `num / den`; of two equally near ones the even one. -/
def roundQuotient (num den : Nat) : Nat :=
  let quotient := num / den
  let rest := 2 * (num % den)
  if den < rest ∨ (rest = den ∧ quotient % 2 = 1) then quotient + 1 else quotient

theorem roundQuotient_one (n : Nat) : roundQuotient n 1 = n := by
  simp [roundQuotient, Nat.mod_one]

/-- The smallest exponent of a finite number. -/
def minExponent : Int := -1074

/-- The largest exponent of a finite number. -/
def maxExponent : Int := 971

/-- Zero with a sign. -/
def zero (negative : Bool) : Binary64 := .finite negative 0 minExponent

instance : Inhabited Binary64 := ⟨zero false⟩

/-- The fraction `num / (den · 2^e)`, as a pair. -/
def scaleDown (num den : Nat) (e : Int) : Nat × Nat :=
  if 0 ≤ e then (num, den * Nat.pow 2 e.toNat) else (num * Nat.pow 2 (-e).toNat, den)

/-- The exponent at which the nearest number to `num / den` has a full mantissa, or the smallest. -/
def exponentFor (num den : Nat) : Int :=
  let guess : Int := (num.log2 : Int) - (den.log2 : Int)
  let (n, d) := scaleDown num den guess
  let top := if n < d then guess - 1 else guess
  max (top - 52) minExponent

/-- The number nearest to ± num / den. -/
def ofRatio (negative : Bool) (num den : Nat) : Binary64 :=
  if num = 0 then zero negative
  else
    let e := exponentFor num den
    let (n, d) := scaleDown num den e
    let m := roundQuotient n d
    let (m, e) := if m = Nat.pow 2 53 then (Nat.pow 2 52, e + 1) else (m, e)
    if maxExponent < e then .infinite negative
    else if m = 0 then zero negative
    else .finite negative m e

/-- The number nearest to a natural number. -/
def ofNat (n : Nat) : Binary64 := ofRatio false n 1

/-- The number nearest to an integer, if one of finite size is near enough. -/
def ofInt? (n : Int) : Option Binary64 :=
  match ofRatio (decide (n < 0)) n.natAbs 1 with
  | .infinite _ => none
  | x => some x

instance (n : Nat) : OfNat Binary64 n := ⟨ofNat n⟩

/-- The fraction that a mantissa and an exponent stand for. -/
def ratio (mantissa : Nat) (exponent : Int) : Nat × Nat :=
  if 0 ≤ exponent then (mantissa * Nat.pow 2 exponent.toNat, 1) else (mantissa, Nat.pow 2 (-exponent).toNat)

/-- The number with the opposite sign. -/
def neg : Binary64 → Binary64
  | .finite s m e => .finite (!s) m e
  | .infinite s => .infinite (!s)
  | .nan => .nan

/-- The mantissa with its sign, moved to a smaller exponent. -/
def signedAt (negative : Bool) (mantissa : Nat) (exponent low : Int) : Int :=
  let size : Int := (mantissa * Nat.pow 2 (exponent - low).toNat : Nat)
  if negative then -size else size

/-- The sum, rounded once. A sum of zero is negative only if both numbers are. -/
def add : Binary64 → Binary64 → Binary64
  | .nan, _ | _, .nan => .nan
  | .infinite s, .infinite t => if s = t then .infinite s else .nan
  | .infinite s, _ => .infinite s
  | _, .infinite t => .infinite t
  | .finite s m e, .finite t n f =>
    let low := min e f
    let sum := signedAt s m e low + signedAt t n f low
    if sum = 0 then zero (s && t)
    else
      let (num, den) := ratio sum.natAbs low
      ofRatio (decide (sum < 0)) num den

/-- The product, rounded once. -/
def mul : Binary64 → Binary64 → Binary64
  | .nan, _ | _, .nan => .nan
  | .infinite s, .infinite t => .infinite (s != t)
  | .infinite s, .finite t n _ => if n = 0 then .nan else .infinite (s != t)
  | .finite s m _, .infinite t => if m = 0 then .nan else .infinite (s != t)
  | .finite s m e, .finite t n f =>
    let (num, den) := ratio (m * n) (e + f)
    ofRatio (s != t) num den

/-- The number divided by a positive whole number, rounded once. -/
def divNat (x : Binary64) (n : Nat) : Binary64 :=
  match x with
  | .finite s m e =>
    let (num, den) := ratio m e
    ofRatio s num (den * n)
  | .infinite s => .infinite s
  | .nan => .nan

/-- The number is zero of either sign. -/
def isZero : Binary64 → Bool
  | .finite _ m _ => m == 0
  | _ => false

/-- The number is smaller; nothing is smaller or larger than `nan`. -/
def lt : Binary64 → Binary64 → Bool
  | .nan, _ | _, .nan => false
  | .infinite s, .infinite t => s && !t
  | .infinite s, .finite .. => s
  | .finite .., .infinite t => !t
  | .finite s m e, .finite t n f =>
    let low := min e f
    decide (signedAt s m e low < signedAt t n f low)

/-- The number is smaller than a whole number. -/
def lessThan (x : Binary64) (n : Int) : Bool :=
  match x with
  | .nan => false
  | .infinite s => s
  | .finite s m e => decide (signedAt s m e (min e 0) < n * Int.pow 2 (-min e 0).toNat)

/-- The number is larger than a whole number. -/
def greaterThan (x : Binary64) (n : Int) : Bool := x.neg.lessThan (-n)

/-- The numbers have one value; `nan` is equal to nothing and both zeros are equal. -/
def same : Binary64 → Binary64 → Bool
  | .nan, _ | _, .nan => false
  | x, y => !lt x y && !lt y x

/-- The numbers added from left to right, beginning with zero. -/
def sum (xs : List Binary64) : Binary64 := xs.foldl add (zero false)

/-- The mean of the numbers, zero where there are none. -/
def mean (xs : List Binary64) : Binary64 :=
  if xs.isEmpty then zero false else (sum xs).divNat xs.length

/-- The whole number of equal value, if there is one. -/
def toInt? : Binary64 → Option Int
  | .finite s m e =>
    let (num, den) := ratio m e
    if num % den = 0 then some (if s then -((num / den : Nat) : Int) else ((num / den : Nat) : Int)) else none
  | _ => none

end Binary64

end LayerLint
