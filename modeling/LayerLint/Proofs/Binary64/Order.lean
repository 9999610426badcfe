import LayerLint.Proofs.Binary64.Shortest
import Mathlib.Order.WithBot

/-!
# The order of numbers

A number has its place among the fractions and the two infinities (`place?`), and `lt` compares places
(`lt_eq_true_iff`). What is missing has no place: it is neither below nor above anything.
-/

namespace LayerLint.Binary64

/-- The fraction that a sign, a mantissa and an exponent stand for. -/
def signedFraction (negative : Bool) (mantissa : Nat) (exponent : Int) : ℚ :=
  (if negative then -1 else 1) * mantissa * 2 ^ exponent

/-- The place of a number among the fractions and the infinities. -/
def place? : Binary64 → Option (WithBot (WithTop ℚ))
  | .finite negative mantissa exponent => some ((signedFraction negative mantissa exponent : WithTop ℚ))
  | .infinite negative => some (if negative then ⊥ else ⊤)
  | .nan => none

/-- **The place of the one number is below that of the other.** -/
def IsBelow (x y : Binary64) : Prop := ∃ a ∈ x.place?, ∃ b ∈ y.place?, a < b

/-- A mantissa moved to a smaller exponent counts units of that exponent. -/
theorem cast_signedAt {negative : Bool} {mantissa : Nat} {exponent low : Int} (h : low ≤ exponent) :
    (signedAt negative mantissa exponent low : ℚ) = signedFraction negative mantissa exponent / 2 ^ low := by
  have hsize : (((mantissa * Nat.pow 2 (exponent - low).toNat : Nat) : Int) : ℚ) =
      mantissa * (2 ^ exponent / 2 ^ low) := by
    rw [Int.cast_natCast, Nat.cast_mul, cast_pow_toNat 2 (by omega), Nat.cast_ofNat, zpow_sub₀ two_ne_zero]
  unfold signedAt signedFraction
  cases negative with
  | false =>
    rw [if_neg Bool.false_ne_true, if_neg Bool.false_ne_true, hsize]
    ring
  | true =>
    rw [if_pos rfl, if_pos rfl, Int.cast_neg, hsize]
    ring

/-- Two mantissas at the smaller of their exponents compare like the fractions. -/
theorem signedAt_lt_iff {s t : Bool} {m n : Nat} {e f : Int} :
    signedAt s m e (min e f) < signedAt t n f (min e f) ↔ signedFraction s m e < signedFraction t n f := by
  have hpow : (0 : ℚ) < 2 ^ min e f := by positivity
  rw [← Int.cast_lt (R := ℚ), cast_signedAt (min_le_left e f), cast_signedAt (min_le_right e f),
    div_lt_div_iff_of_pos_right hpow]

/-- **`lt` compares places.** -/
theorem lt_eq_true_iff {x y : Binary64} : x.lt y = true ↔ x.IsBelow y := by
  cases x with
  | nan => simp [lt, IsBelow, place?]
  | infinite s =>
    cases y with
    | nan => simp [lt, IsBelow, place?]
    | infinite t => cases s <;> cases t <;> simp [lt, IsBelow, place?]
    | finite t n f => cases s <;> simp [lt, IsBelow, place?]
  | finite s m e =>
    cases y with
    | nan => simp [lt, IsBelow, place?]
    | infinite t =>
      have htop : ((signedFraction s m e : WithTop ℚ) : WithBot (WithTop ℚ)) < ⊤ :=
        WithBot.coe_lt_coe.mpr (WithTop.coe_lt_top _)
      cases t <;> simp [lt, IsBelow, place?, htop]
    | finite t n f => simp [lt, IsBelow, place?, signedAt_lt_iff]

instance (x y : Binary64) : Decidable (x.IsBelow y) := decidable_of_iff _ lt_eq_true_iff

end LayerLint.Binary64
