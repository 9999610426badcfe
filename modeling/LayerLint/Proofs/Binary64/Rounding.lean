import LayerLint.Binary64.Decimal
import Mathlib.Algebra.Order.Field.Power
import Mathlib.Data.Rat.Cast.Order
import Mathlib.Tactic.FieldSimp
import Mathlib.Tactic.Linarith
import Mathlib.Tactic.Positivity
import Mathlib.Tactic.Ring

/-!
# Fractions that round to a number

The fractions in the rounding interval of a number are rounded to this number (`ofRatio_of_has`). Such a fraction has
the exponent of the number (`exponentFor_of_full`, `exponentFor_of_small`), where its mantissa is rounded to the one of
the number (`ofRatio_of_round`), or it lies below a power of two with the exponent before it, and its mantissa is
carried (`ofRatio_of_carry`).
-/

namespace LayerLint.Binary64

/-- A finite number in its one form: with a full mantissa or the smallest exponent. -/
structure IsCanonical (m : Nat) (e : Int) : Prop where
  mantissa : m < 2 ^ 53
  least : minExponent ≤ e
  greatest : e ≤ maxExponent
  full : 2 ^ 52 ≤ m ∨ e = minExponent

/-- The number is finite and has its one form. -/
def IsNumber : Binary64 → Prop
  | .finite _ m e => IsCanonical m e
  | .infinite _ | .nan => False

/-- A multiple of the unit of an interval lies in it. -/
def Interval.Has (i : Interval) (q : ℚ) : Prop :=
  if i.closed then i.low ≤ q ∧ q ≤ i.high else i.low < q ∧ q < i.high

/-! ## The nearest whole number -/

/-- A fraction less than a half away from a whole number is rounded to it, also half away if it is even. -/
theorem roundQuotient_eq {n d m : Nat} (hd : 0 < d) (hlow : 2 * m * d ≤ 2 * n + d) (hhigh : 2 * n ≤ 2 * m * d + d)
    (heven : 2 * m * d = 2 * n + d ∨ 2 * n = 2 * m * d + d → m % 2 = 0) : roundQuotient n d = m := by
  have hn := Nat.div_add_mod n d
  have hr := Nat.mod_lt n hd
  rw [roundQuotient]
  generalize n / d = q at hn ⊢
  generalize n % d = r at hn hr ⊢
  subst hn
  have hle : q ≤ m := by
    by_contra hlt
    have := Nat.mul_le_mul_left d (show m + 1 ≤ q by omega)
    linarith
  have hge : m ≤ q + 1 := by
    by_contra hlt
    have := Nat.mul_le_mul_left d (show q + 2 ≤ m by omega)
    linarith
  obtain rfl | rfl : m = q ∨ m = q + 1 := by omega
  · have hrest : 2 * r ≤ d := by linarith
    have htie : 2 * r = d → m % 2 = 0 := fun h => heven (.inr (by linarith))
    rw [if_neg (by omega)]
  · have hrest : d ≤ 2 * r := by linarith
    have htie : 2 * r = d → (q + 1) % 2 = 0 := fun h => heven (.inl (by linarith))
    rw [if_pos (by omega)]

/-! ## Exponents -/

/-- A fraction in units of a power of two. -/
theorem scaleDown_eq (num : Nat) {den : Nat} (hden : 0 < den) (e : Int) :
    0 < (scaleDown num den e).2 ∧
      ((scaleDown num den e).1 : ℚ) / (scaleDown num den e).2 = num / den / 2 ^ e := by
  rw [scaleDown]
  split
  · rename_i he
    obtain ⟨k, rfl⟩ := Int.eq_ofNat_of_zero_le he
    exact ⟨Nat.mul_pos hden (Nat.pow_pos (by decide)), by simp [div_div]⟩
  · rename_i he
    obtain ⟨k, rfl⟩ : ∃ k : Nat, e = -k := ⟨(-e).toNat, by omega⟩
    exact ⟨hden, by simp; ring⟩

/-- The power of two below a fraction. -/
theorem exponentFor_eq {num den : Nat} (hnum : 0 < num) (hden : 0 < den) :
    ∃ top : Int, exponentFor num den = max (top - 52) minExponent ∧ (2 : ℚ) ^ top ≤ num / den ∧
      (num : ℚ) / den < 2 ^ (top + 1) := by
  have hlog : ∀ {n : Nat}, 0 < n → ((2 : ℚ) ^ (n.log2 : Int) ≤ n ∧ (n : ℚ) < 2 ^ ((n.log2 : Int) + 1)) := fun hn => by
    have hne := Nat.pos_iff_ne_zero.mp hn
    exact ⟨by exact_mod_cast Nat.log2_self_le hne, by exact_mod_cast Nat.lt_log2_self⟩
  have hnumQ : (0 : ℚ) < num := by exact_mod_cast hnum
  have hdenQ : (0 : ℚ) < den := by exact_mod_cast hden
  obtain ⟨hnumLow, hnumHigh⟩ := hlog hnum
  obtain ⟨hdenLow, hdenHigh⟩ := hlog hden
  rw [exponentFor]
  generalize (num.log2 : Int) = a at *
  generalize (den.log2 : Int) = b at *
  have hlow : (2 : ℚ) ^ (a - b - 1) ≤ num / den := by
    rw [le_div_iff₀ hdenQ]
    calc (2 : ℚ) ^ (a - b - 1) * den ≤ 2 ^ (a - b - 1) * 2 ^ (b + 1) := by gcongr
      _ = 2 ^ a := by rw [← zpow_add₀ two_ne_zero]; congr 1; ring
      _ ≤ num := hnumLow
  have hhigh : (num : ℚ) / den < 2 ^ (a - b + 1) := by
    rw [div_lt_iff₀ hdenQ]
    calc (num : ℚ) < 2 ^ (a + 1) := hnumHigh
      _ = 2 ^ (a - b + 1) * 2 ^ b := by rw [← zpow_add₀ two_ne_zero]; congr 1; ring
      _ ≤ 2 ^ (a - b + 1) * den := by gcongr
  obtain ⟨hd, hscaled⟩ := scaleDown_eq num hden (a - b)
  generalize scaleDown num den (a - b) = scaled at hd hscaled ⊢
  obtain ⟨n, d⟩ := scaled
  have hlt : n < d ↔ (num : ℚ) / den < 2 ^ (a - b) := by
    have hdQ : (0 : ℚ) < d := by exact_mod_cast hd
    have hpow : (0 : ℚ) < 2 ^ (a - b) := by positivity
    rw [← div_lt_one hpow, ← hscaled, div_lt_one hdQ, Nat.cast_lt]
  refine ⟨_, rfl, ?_⟩
  split
  · rename_i h
    exact ⟨hlow, by simpa using hlt.mp h⟩
  · rename_i h
    exact ⟨not_lt.mp (mt hlt.mpr h), hhigh⟩

/-! ## Rounding -/

/-- A fraction in units of a power of two is rounded to the nearest mantissa. -/
theorem roundQuotient_scaleDown {num den m : Nat} {e : Int} (hden : 0 < den)
    (hlow : (m : ℚ) - 1 / 2 ≤ num / den / 2 ^ e) (hhigh : (num : ℚ) / den / 2 ^ e ≤ m + 1 / 2)
    (heven : (num : ℚ) / den / 2 ^ e = m - 1 / 2 ∨ (num : ℚ) / den / 2 ^ e = m + 1 / 2 → m % 2 = 0) :
    roundQuotient (scaleDown num den e).1 (scaleDown num den e).2 = m := by
  obtain ⟨hd, hscaled⟩ := scaleDown_eq num hden e
  generalize (scaleDown num den e).1 = n at *
  generalize (scaleDown num den e).2 = d at *
  have hdQ : (0 : ℚ) < d := by exact_mod_cast hd
  rw [← hscaled] at hlow hhigh heven
  rw [le_div_iff₀ hdQ] at hlow
  rw [div_le_iff₀ hdQ] at hhigh
  refine roundQuotient_eq hd ?_ ?_ fun htie => heven ?_
  · exact_mod_cast (by linarith : (2 : ℚ) * m * d ≤ 2 * n + d)
  · exact_mod_cast (by linarith : (2 : ℚ) * n ≤ 2 * m * d + d)
  · rw [div_eq_iff hdQ.ne', div_eq_iff hdQ.ne']
    refine htie.imp (fun h => ?_) fun h => ?_
    · have : (2 : ℚ) * m * d = 2 * n + d := by exact_mod_cast h
      linarith
    · have : (2 : ℚ) * n = 2 * m * d + d := by exact_mod_cast h
      linarith

/-- The rounding interval in units of the last place. -/
theorem bounds_of_has {m : Nat} {e : Int} {y : ℚ} (hm : m ≠ 0) (h : (roundingInterval m e).Has (4 * y)) :
    (m : ℚ) - 1 / 2 ≤ y ∧ y ≤ m + 1 / 2 ∧ (y = m - 1 / 2 ∨ y = m + 1 / 2 → m % 2 = 0) ∧
      (m = 2 ^ 52 ∧ minExponent < e → (m : ℚ) - 1 / 4 ≤ y) := by
  have hone : ((4 * m - 1 : Nat) : ℚ) = 4 * m - 1 := by
    rw [Nat.cast_sub (by omega)]
    push_cast
    ring
  have htwo : ((4 * m - 2 : Nat) : ℚ) = 4 * m - 2 := by
    rw [Nat.cast_sub (by omega)]
    push_cast
    ring
  have hlow : ((4 * m - 2 : Nat) : ℚ) ≤ (roundingInterval m e).low := by
    rw [roundingInterval]
    dsimp only
    split <;> exact_mod_cast (by omega)
  have hhigh : ((roundingInterval m e).high : ℚ) = 4 * m + 2 := by simp [roundingInterval]
  rw [htwo] at hlow
  rw [Interval.Has, hhigh] at h
  have hpower : m = 2 ^ 52 ∧ Binary64.minExponent < e → ((roundingInterval m e).low : ℚ) = 4 * m - 1 := fun hp => by
    rw [roundingInterval]
    dsimp only
    rw [if_pos (by simpa using hp), hone]
  split at h
  · rename_i hclosed
    have heven : m % 2 = 0 := by simpa [roundingInterval] using hclosed
    refine ⟨by linarith, by linarith, fun _ => heven, fun hp => ?_⟩
    have := hpower hp
    linarith
  · refine ⟨by linarith, by linarith, ?_, fun hp => ?_⟩
    · rintro (rfl | rfl)
      · exact absurd h.1 (by linarith)
      · exact absurd h.2 (by linarith)
    · have := hpower hp
      linarith

/-- A fraction with a full mantissa of some units has the exponent of these units. -/
theorem exponentFor_of_full {num den : Nat} {e : Int} (hnum : 0 < num) (hden : 0 < den) (hleast : minExponent ≤ e)
    (hlow : (2 : ℚ) ^ 52 ≤ num / den / 2 ^ e) (hhigh : (num : ℚ) / den / 2 ^ e < 2 ^ 53) :
    exponentFor num den = e := by
  obtain ⟨top, hexponent, htopLow, htopHigh⟩ := exponentFor_eq hnum hden
  have hpow : (0 : ℚ) < 2 ^ e := by positivity
  rw [le_div_iff₀ hpow] at hlow
  rw [div_lt_iff₀ hpow] at hhigh
  have hle : (2 : ℚ) ^ (52 + e) < 2 ^ (top + 1) := by
    rw [zpow_add₀ two_ne_zero]
    exact lt_of_le_of_lt (by exact_mod_cast hlow) htopHigh
  have hge : (2 : ℚ) ^ top < 2 ^ (53 + e) := by
    rw [zpow_add₀ two_ne_zero]
    exact lt_of_le_of_lt htopLow (by exact_mod_cast hhigh)
  rw [zpow_lt_zpow_iff_right₀ one_lt_two] at hle hge
  omega

/-- A fraction without a full mantissa of the smallest units has the smallest exponent. -/
theorem exponentFor_of_small {num den : Nat} (hnum : 0 < num) (hden : 0 < den)
    (hsmall : (num : ℚ) / den / 2 ^ minExponent < 2 ^ 52) : exponentFor num den = minExponent := by
  obtain ⟨top, hexponent, htopLow, -⟩ := exponentFor_eq hnum hden
  rw [div_lt_iff₀ (by positivity)] at hsmall
  have hge : (2 : ℚ) ^ top < 2 ^ (52 + minExponent) := by
    rw [zpow_add₀ two_ne_zero]
    exact lt_of_le_of_lt htopLow (by exact_mod_cast hsmall)
  rw [zpow_lt_zpow_iff_right₀ one_lt_two] at hge
  rw [hexponent]
  exact max_eq_right (by omega)

/-- A mantissa that is not carried is the mantissa of the number. -/
theorem ofRatio_of_round {num den m : Nat} {e : Int} (hnum : 0 < num) (hexponent : exponentFor num den = e)
    (hround : roundQuotient (scaleDown num den e).1 (scaleDown num den e).2 = m) (hm : m ≠ 0) (hmantissa : m < 2 ^ 53)
    (hgreatest : e ≤ maxExponent) (negative : Bool) : ofRatio negative num den = .finite negative m e := by
  have hfull : m ≠ Nat.pow 2 53 := Nat.ne_of_lt hmantissa
  have hfits : ¬ maxExponent < e := not_lt.mpr hgreatest
  rw [ofRatio, if_neg hnum.ne']
  simp only [hexponent, hround, hfull, if_false, hfits, hm]

/-- A mantissa that is rounded up to a power of two is carried into the exponent. -/
theorem ofRatio_of_carry {num den : Nat} {e : Int} (hnum : 0 < num) (hexponent : exponentFor num den = e)
    (hround : roundQuotient (scaleDown num den e).1 (scaleDown num den e).2 = 2 ^ 53)
    (hgreatest : e + 1 ≤ maxExponent) (negative : Bool) :
    ofRatio negative num den = .finite negative (2 ^ 52) (e + 1) := by
  have hfull : roundQuotient (scaleDown num den e).1 (scaleDown num den e).2 = Nat.pow 2 53 := hround
  have hfits : ¬ maxExponent < e + 1 := not_lt.mpr hgreatest
  rw [ofRatio, if_neg hnum.ne']
  simp only [hexponent, hfull, if_true, hfits, if_false]
  rfl

/-- **A fraction in the rounding interval of a number is rounded to the number.** -/
theorem ofRatio_of_has {m num den : Nat} {e : Int} (hcanonical : IsCanonical m e) (hm : m ≠ 0) (hnum : 0 < num)
    (hden : 0 < den) (h : (roundingInterval m e).Has (num / den / 2 ^ (e - 2))) (negative : Bool) :
    ofRatio negative num den = .finite negative m e := by
  obtain ⟨hmantissa, hleast, hgreatest, hfull⟩ := hcanonical
  have hunit : (num : ℚ) / den / 2 ^ (e - 2) = 4 * (num / den / 2 ^ e) := by
    rw [zpow_sub₀ two_ne_zero]
    field_simp
    norm_num
  rw [hunit] at h
  obtain ⟨hlow, hhigh, heven, hpower⟩ := bounds_of_has hm h
  have hround := roundQuotient_scaleDown hden hlow hhigh heven
  -- Either the fraction has the exponent of the number, or it lies just below a power of two and is rounded up to it.
  rcases le_or_gt ((2 : ℚ) ^ 52) (num / den / 2 ^ e) with hnormal | hsmall
  · have hbound : (m : ℚ) + 1 ≤ 2 ^ 53 := by exact_mod_cast hmantissa
    have hexponent := exponentFor_of_full hnum hden hleast hnormal (by linarith)
    exact ofRatio_of_round hnum hexponent hround hm hmantissa hgreatest negative
  · rcases hleast.eq_or_lt with rfl | hlt
    · exact ofRatio_of_round hnum (exponentFor_of_small hnum hden hsmall) hround hm hmantissa hgreatest negative
    · obtain rfl : m = 2 ^ 52 := by
        refine le_antisymm ?_ (hfull.resolve_right hlt.ne')
        have hlt : (m : ℚ) < 2 ^ 52 + 1 := by linarith
        exact Nat.lt_succ_iff.mp (by exact_mod_cast hlt)
      have hnear := hpower ⟨rfl, hlt⟩
      have hhalf : (num : ℚ) / den / 2 ^ (e - 1) = 2 * (num / den / 2 ^ e) := by
        rw [zpow_sub_one₀ two_ne_zero]
        field_simp
      push_cast at hnear
      have hdown : exponentFor num den = e - 1 :=
        exponentFor_of_full hnum hden (by omega) (by rw [hhalf]; linarith) (by rw [hhalf]; linarith)
      have hcarry : roundQuotient (scaleDown num den (e - 1)).1 (scaleDown num den (e - 1)).2 = 2 ^ 53 := by
        refine roundQuotient_scaleDown hden ?_ ?_ fun _ => by decide
        · rw [hhalf]
          push_cast
          linarith
        · rw [hhalf]
          push_cast
          linarith
      have hgreatest' : e - 1 + 1 ≤ maxExponent := by omega
      rw [ofRatio_of_carry hnum hdown hcarry hgreatest', sub_add_cancel]

end LayerLint.Binary64
