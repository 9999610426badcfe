import LayerLint.Proofs.Binary64.Rounding

/-!
# The shortest digits

The digits that `shortest` finds for a number lie in its rounding interval, for seventeen digits are always enough
(`shortest_readsAs`), so they read back as the number (`ofDecimal_of_value`).
-/

namespace LayerLint.Binary64

/-- A decimal fraction. -/
def Digits.value (d : Digits) : ℚ := d.coefficient * 10 ^ d.exponent

/-- The decimal fraction lies in the rounding interval of a number and is not zero. -/
def Digits.ReadsAs (d : Digits) (m : Nat) (e : Int) : Prop :=
  d.coefficient ≠ 0 ∧ (roundingInterval m e).Has (d.value / 2 ^ (e - 2))

/-! ## Picking digits -/

theorem contains_iff {i : Interval} {num den c : Nat} (hnum : 0 < num) :
    i.contains num den c = true ↔ i.Has (c * (den / num)) := by
  have hnumQ : (0 : ℚ) < num := by exact_mod_cast hnum
  rw [Interval.contains, Interval.Has]
  split <;>
  · rw [decide_eq_true_iff, ← mul_div_assoc]
    first
    | rw [le_div_iff₀ hnumQ, div_le_iff₀ hnumQ]
    | rw [lt_div_iff₀ hnumQ, div_lt_iff₀ hnumQ]
    exact_mod_cast Iff.rfl

theorem cast_pow_toNat (b : Nat) {k : Int} (hk : 0 ≤ k) : ((Nat.pow b k.toNat : Nat) : ℚ) = (b : ℚ) ^ k := by
  obtain ⟨n, rfl⟩ := Int.eq_ofNat_of_zero_le hk
  simp

/-- The units in which digits and intervals are counted. -/
theorem unitRatio_eq (e exponent : Int) :
    0 < (unitRatio e exponent).1 ∧ 0 < (unitRatio e exponent).2 ∧
      ((unitRatio e exponent).2 : ℚ) / (unitRatio e exponent).1 = 10 ^ exponent / 2 ^ (e - 2) := by
  obtain ⟨tenNum, tenDen, hten, hnum, hden, hvalue⟩ : ∃ tenNum tenDen : Nat,
      (if 0 ≤ exponent then (Nat.pow 10 exponent.toNat, 1) else (1, Nat.pow 10 (-exponent).toNat)) = (tenNum, tenDen) ∧
        0 < tenNum ∧ 0 < tenDen ∧ (tenNum : ℚ) / tenDen = 10 ^ exponent := by
    split
    · rename_i hk
      exact ⟨_, _, rfl, Nat.pow_pos (by decide), Nat.one_pos, by rw [cast_pow_toNat 10 hk]; simp⟩
    · rename_i hk
      refine ⟨_, _, rfl, Nat.one_pos, Nat.pow_pos (by decide), ?_⟩
      rw [cast_pow_toNat 10 (by omega)]
      simp
  have htwo : ∀ k, 0 < Nat.pow 2 k := fun _ => Nat.pow_pos (by decide)
  rw [unitRatio, hten, ← hvalue]
  dsimp only
  split
  · rename_i hf
    refine ⟨Nat.mul_pos (htwo _) hden, hnum, ?_⟩
    rw [Nat.cast_mul, cast_pow_toNat 2 hf, div_div, Nat.cast_two, mul_comm ((2 : ℚ) ^ _)]
  · rename_i hf
    refine ⟨hden, Nat.mul_pos hnum (htwo _), ?_⟩
    rw [Nat.cast_mul, cast_pow_toNat 2 (by omega), zpow_neg, Nat.cast_two]
    ring

theorem has_of_pick? {i : Interval} {num den c : Nat} (hnum : 0 < num) (h : i.pick? num den = some c) :
    c ≠ 0 ∧ i.Has (c * (den / num)) := by
  rw [Interval.pick?] at h
  split at h
  · rename_i hbelow habove
    rw [Bool.and_eq_true, bne_iff_ne] at hbelow
    obtain rfl := Option.some.inj h
    split
    · exact ⟨hbelow.2, (contains_iff hnum).mp hbelow.1⟩
    · exact ⟨Nat.succ_ne_zero _, (contains_iff hnum).mp habove⟩
  · rename_i hbelow _
    rw [Bool.and_eq_true, bne_iff_ne] at hbelow
    obtain rfl := Option.some.inj h
    exact ⟨hbelow.2, (contains_iff hnum).mp hbelow.1⟩
  · rename_i _ habove
    obtain rfl := Option.some.inj h
    exact ⟨Nat.succ_ne_zero _, (contains_iff hnum).mp habove⟩
  · cases h

/-- In a grid that is finer than the interval some digits are picked. -/
theorem isSome_pick? {i : Interval} {num den : Nat} (hden : 0 < den) (hlow : i.low < i.middle)
    (hhigh : i.middle < i.high)
    (hone : den ≤ i.middle * num) (hfine : den + i.low * num < i.high * num) : (i.pick? num den).isSome := by
  have hbelow : i.middle * num / den ≠ 0 := (Nat.div_pos hone hden).ne'
  have hnum : 0 < num := Nat.pos_of_ne_zero fun h => by simp [h] at hfine
  have hmiddle := Nat.div_add_mod (i.middle * num) den
  have hrest := Nat.mod_lt (i.middle * num) hden
  have hlow' : i.low * num < i.middle * num := Nat.mul_lt_mul_of_pos_right hlow hnum
  have hhigh' : i.middle * num < i.high * num := Nat.mul_lt_mul_of_pos_right hhigh hnum
  rw [Interval.pick?]
  generalize i.middle * num / den = below at *
  -- If neither neighbour of the middle lies in the interval, the interval is no wider than a unit.
  have hsome : i.contains num den below = true ∨ i.contains num den (below + 1) = true := by
    rw [Interval.contains, Interval.contains, Nat.add_mul, Nat.one_mul, Nat.mul_comm below]
    split <;> simp only [decide_eq_true_eq] <;> omega
  rcases hsome with h | h
  · rw [h, bne_iff_ne.mpr hbelow]
    cases i.contains num den (below + 1) <;> rfl
  · rw [h]
    cases i.contains num den below && below != 0 <;> rfl

/-- The first grid in which digits can be picked gives digits that read back. -/
theorem searchDigits_readsAs {m : Nat} {e lead : Int} {counts : List Nat} {n : Nat} (hn : n ∈ counts)
    (h : ((roundingInterval m e).pick? (unitRatio e (lead + 1 - n)).1 (unitRatio e (lead + 1 - n)).2).isSome) :
    (searchDigits (roundingInterval m e) e lead counts).ReadsAs m e := by
  induction counts with
  | nil => cases hn
  | cons k counts ih =>
    rw [searchDigits]
    dsimp only
    split
    · rename_i c hpick
      obtain ⟨hnum, -, hunit⟩ := unitRatio_eq e (lead + 1 - k)
      obtain ⟨hne, hhas⟩ := has_of_pick? hnum hpick
      refine ⟨hne, ?_⟩
      rwa [Digits.value, mul_div_assoc, ← hunit]
    · rename_i hpick
      rcases List.mem_cons.mp hn with rfl | hn
      · simp [hpick] at h
      · exact ih hn

/-! ## The first digit -/

/-- A whole number lies between the powers of ten that the number of its digits says. -/
theorem length_toDigits_bounds {n : Nat} (hn : n ≠ 0) :
    10 ^ ((Nat.toDigits 10 n).length - 1) ≤ n ∧ n < 10 ^ (Nat.toDigits 10 n).length := by
  have hpos : 0 < (Nat.toDigits 10 n).length := Nat.length_toDigits_pos
  refine ⟨?_, (Nat.length_toDigits_le_iff (by decide) hpos).mp le_rfl⟩
  rcases Nat.eq_zero_or_pos ((Nat.toDigits 10 n).length - 1) with hone | hmore
  · rw [hone]
    exact Nat.pos_of_ne_zero hn
  · by_contra hlt
    have := (Nat.length_toDigits_le_iff (by decide) hmore).mpr (not_le.mp hlt)
    omega

/-- The fraction that a number stands for. -/
theorem ratio_eq {m : Nat} (hm : m ≠ 0) (e : Int) :
    0 < (ratio m e).1 ∧ 0 < (ratio m e).2 ∧ ((ratio m e).1 : ℚ) / (ratio m e).2 = m * 2 ^ e := by
  have hpos := Nat.pos_of_ne_zero hm
  have htwo : ∀ k, 0 < Nat.pow 2 k := fun _ => Nat.pow_pos (by decide)
  rw [ratio]
  split
  · rename_i he
    refine ⟨Nat.mul_pos hpos (htwo _), Nat.one_pos, ?_⟩
    rw [Nat.cast_mul, cast_pow_toNat 2 he]
    simp
  · rename_i he
    refine ⟨hpos, htwo _, ?_⟩
    rw [cast_pow_toNat 2 (by omega), zpow_neg, Nat.cast_two, div_inv_eq_mul]

/-- The power of ten of the first digit is not larger than the number. -/
theorem leadingExponent_le {m : Nat} {e : Int} (hm : m ≠ 0) : (10 : ℚ) ^ leadingExponent m e ≤ m * 2 ^ e := by
  obtain ⟨hnum, hden, hvalue⟩ := ratio_eq hm e
  rw [leadingExponent, ← hvalue]
  generalize ratio m e = fraction at *
  obtain ⟨num, den⟩ := fraction
  dsimp only at *
  have hdenQ : (0 : ℚ) < den := by exact_mod_cast hden
  rw [le_div_iff₀ hdenQ]
  split
  · rename_i hwhole
    have hpos : 0 < (Nat.toDigits 10 (num / den)).length := Nat.length_toDigits_pos
    have hle : 10 ^ ((Nat.toDigits 10 (num / den)).length - 1) * den ≤ num :=
      (Nat.le_div_iff_mul_le hden).mp (length_toDigits_bounds hwhole).1
    rw [← Nat.cast_pred hpos, zpow_natCast]
    exact_mod_cast hle
  · have hlt : (den - 1) / num < 10 ^ (Nat.toDigits 10 ((den - 1) / num)).length := by
      rcases Nat.eq_zero_or_pos ((den - 1) / num) with hzero | hpos
      · rw [hzero]
        exact Nat.pow_pos (by decide)
      · exact (length_toDigits_bounds hpos.ne').2
    generalize (Nat.toDigits 10 ((den - 1) / num)).length = places at *
    have hle : den ≤ 10 ^ places * num := by
      have := (Nat.div_lt_iff_lt_mul hnum).mp hlt
      omega
    have hpow : (0 : ℚ) < 10 ^ places := by positivity
    have hneg : Int.negOfNat places = -(places : Int) := by cases places <;> rfl
    rw [hneg, zpow_neg, zpow_natCast, inv_mul_le_iff₀ hpow]
    exact_mod_cast hle

/-- **Seventeen digits are enough**: the shortest digits of a number read back. -/
theorem shortest_readsAs {m : Nat} {e : Int} (hcanonical : IsCanonical m e) (hm : m ≠ 0) :
    (shortest m e).ReadsAs m e := by
  rw [shortest, if_neg hm]
  refine searchDigits_readsAs (n := 17) (by decide) ?_
  obtain ⟨hnum, hden, hunit⟩ := unitRatio_eq e (leadingExponent m e + 1 - (17 : Nat))
  have hlead := leadingExponent_le (e := e) hm
  generalize (unitRatio e (leadingExponent m e + 1 - (17 : Nat))).1 = num at *
  generalize (unitRatio e (leadingExponent m e + 1 - (17 : Nat))).2 = den at *
  -- The seventeenth digit counts at most a part in 10^16 of the number.
  have hgrid : 10 ^ 16 * den ≤ 4 * (m * num) := by
    have hnumQ : (0 : ℚ) < num := by exact_mod_cast hnum
    have hunit' : (10 : ℚ) ^ 16 * (den / num) ≤ 4 * m := by
      have hsplit : (10 : ℚ) ^ (leadingExponent m e + 1 - (17 : Nat)) = 10 ^ leadingExponent m e / 10 ^ 16 := by
        rw [show leadingExponent m e + 1 - (17 : Nat) = leadingExponent m e - (16 : Nat) by push_cast; ring,
          zpow_sub₀ (by norm_num), zpow_natCast]
      rw [hunit, hsplit, zpow_sub₀ two_ne_zero]
      calc (10 : ℚ) ^ 16 * (10 ^ leadingExponent m e / 10 ^ 16 / (2 ^ e / 2 ^ (2 : Int)))
          = 10 ^ leadingExponent m e * 4 / 2 ^ e := by field_simp; norm_num
        _ ≤ m * 2 ^ e * 4 / 2 ^ e := by gcongr
        _ = 4 * m := by field_simp
    rw [← mul_div_assoc, div_le_iff₀ hnumQ, mul_assoc] at hunit'
    exact_mod_cast hunit'
  have hmantissa : m * num ≤ (2 ^ 53 - 1) * num := Nat.mul_le_mul_right _ (Nat.le_pred_of_lt hcanonical.mantissa)
  have hpos := Nat.pos_of_ne_zero hm
  refine isSome_pick? hden ?_ (by simp [roundingInterval]) ?_ ?_
  · simp only [roundingInterval]
    split <;> omega
  · simp only [roundingInterval, Nat.mul_assoc]
    omega
  · simp only [roundingInterval]
    split
    · rename_i hpower
      obtain rfl : m = 2 ^ 52 := hpower.1
      omega
    · rw [Nat.sub_mul, Nat.add_mul, Nat.mul_assoc]
      omega

/-- Zeros at the end do not count. -/
theorem dropZeros_readsAs {m : Nat} {e : Int} {d : Digits} (h : d.ReadsAs m e) (steps : Nat) :
    (dropZeros steps d).ReadsAs m e := by
  induction steps generalizing d with
  | zero => exact h
  | succ steps ih =>
    rw [dropZeros]
    split
    · rename_i hzero
      refine ih ⟨by dsimp only; omega, ?_⟩
      have hvalue : Digits.value ⟨d.coefficient / 10, d.exponent + 1⟩ = d.value := by
        have hten : d.coefficient = 10 * (d.coefficient / 10) := by omega
        rw [Digits.value, Digits.value, zpow_add_one₀ (by norm_num)]
        conv_rhs => rw [hten]
        push_cast
        ring
      rw [hvalue]
      exact h.2
    · exact h

/-- The shortest digits of a number are not zero, or they are just the digit zero. -/
theorem shortest_ne_zero {m : Nat} {e : Int} (hcanonical : IsCanonical m e) :
    (dropZeros 400 (shortest m e)).coefficient ≠ 0 ∨ (dropZeros 400 (shortest m e)).exponent = 0 := by
  by_cases hm : m = 0
  · subst hm
    exact .inr rfl
  · exact .inl (dropZeros_readsAs (shortest_readsAs hcanonical hm) 400).1

/-! ## Reading decimal fractions -/

/-- The half of the smallest number. -/
theorem half_least : (10 : ℚ) ^ (-324 : Int) < 1 / 2 * 2 ^ minExponent := by
  have hnat : (2 * 2 ^ 1074 : Nat) < 10 ^ 324 := by decide +kernel
  have hlt : (2 : ℚ) * 2 ^ 1074 < 10 ^ 324 := by exact_mod_cast hnat
  rw [minExponent, show (-324 : Int) = -(324 : Nat) from rfl, show (-1074 : Int) = -(1074 : Nat) from rfl, zpow_neg,
    zpow_neg, zpow_natCast, zpow_natCast, one_div, ← mul_inv]
  exact inv_strictAnti₀ (by positivity) hlt

/-- The numbers end here. -/
theorem greatest_lt : (2 : ℚ) ^ 53 * 2 ^ maxExponent < 10 ^ (309 : Int) := by
  have hnat : (2 ^ 53 * 2 ^ 971 : Nat) < 10 ^ 309 := by decide +kernel
  have hlt : (2 : ℚ) ^ 53 * 2 ^ 971 < 10 ^ 309 := by exact_mod_cast hnat
  rw [maxExponent, show (971 : Int) = (971 : Nat) from rfl, show (309 : Int) = (309 : Nat) from rfl, zpow_natCast,
    zpow_natCast]
  exact hlt

/-- A decimal fraction in the rounding interval of a number is neither too large nor too small to be computed. -/
theorem exponent_bounds {m digits : Nat} {e exponent : Int} (hcanonical : IsCanonical m e) (hm : m ≠ 0)
    (hdigits : digits ≠ 0) (h : (roundingInterval m e).Has (4 * (digits * 10 ^ exponent / 2 ^ e))) :
    -324 < exponent + (Nat.toDigits 10 digits).length ∧ exponent + (Nat.toDigits 10 digits).length < 310 := by
  obtain ⟨hlow, hhigh, -⟩ := bounds_of_has hm h
  obtain ⟨hfewer, hmore⟩ := length_toDigits_bounds hdigits
  have hpos : 0 < (Nat.toDigits 10 digits).length := Nat.length_toDigits_pos
  generalize (Nat.toDigits 10 digits).length = size at *
  have hpow : (0 : ℚ) < 2 ^ e := by positivity
  have hten : (0 : ℚ) < 10 ^ exponent := by positivity
  rw [le_div_iff₀ hpow] at hlow
  rw [div_le_iff₀ hpow] at hhigh
  have hone : (1 : ℚ) ≤ m := by exact_mod_cast Nat.pos_of_ne_zero hm
  have hmantissa : (m : ℚ) + 1 ≤ 2 ^ 53 := by exact_mod_cast hcanonical.mantissa
  constructor
  · have hlt : (10 : ℚ) ^ (-324 : Int) < 10 ^ (exponent + size) := by
      calc (10 : ℚ) ^ (-324 : Int) < 1 / 2 * 2 ^ minExponent := half_least
        _ ≤ (m - 1 / 2) * 2 ^ e :=
          mul_le_mul (by linarith) (zpow_le_zpow_right₀ one_le_two hcanonical.least) (by positivity) (by linarith)
        _ ≤ digits * 10 ^ exponent := hlow
        _ < 10 ^ size * 10 ^ exponent := by gcongr; exact_mod_cast hmore
        _ = 10 ^ (exponent + size) := by rw [zpow_add₀ (by norm_num), zpow_natCast, mul_comm]
    exact (zpow_lt_zpow_iff_right₀ (by norm_num)).mp hlt
  · have hlt : (10 : ℚ) ^ (exponent + size - 1) < 10 ^ (309 : Int) := by
      calc (10 : ℚ) ^ (exponent + size - 1) = 10 ^ (size - 1) * 10 ^ exponent := by
            rw [add_sub_assoc, ← Nat.cast_pred hpos, zpow_add₀ (by norm_num), zpow_natCast, mul_comm]
        _ ≤ digits * 10 ^ exponent := by gcongr; exact_mod_cast hfewer
        _ ≤ (m + 1 / 2) * 2 ^ e := hhigh
        _ ≤ 2 ^ 53 * 2 ^ maxExponent :=
          mul_le_mul (by linarith) (zpow_le_zpow_right₀ one_le_two hcanonical.greatest) (by positivity) (by positivity)
        _ < 10 ^ (309 : Int) := greatest_lt
    have := (zpow_lt_zpow_iff_right₀ (by norm_num : (1 : ℚ) < 10)).mp hlt
    omega

/-- **A decimal fraction in the rounding interval of a number reads as the number.** -/
theorem ofDecimal_of_has {m digits : Nat} {e exponent : Int} (hcanonical : IsCanonical m e) (hm : m ≠ 0)
    (hdigits : digits ≠ 0) (h : (roundingInterval m e).Has (digits * 10 ^ exponent / 2 ^ (e - 2))) (negative : Bool) :
    ofDecimal negative digits exponent = .finite negative m e := by
  have hunit : (digits : ℚ) * 10 ^ exponent / 2 ^ (e - 2) = 4 * (digits * 10 ^ exponent / 2 ^ e) := by
    rw [zpow_sub₀ two_ne_zero]
    field_simp
    norm_num
  obtain ⟨hleast, hgreatest⟩ := exponent_bounds hcanonical hm hdigits (hunit ▸ h)
  have hpos := Nat.pos_of_ne_zero hdigits
  have hten : ∀ k, 0 < Nat.pow 10 k := fun _ => Nat.pow_pos (by decide)
  rw [ofDecimal, if_neg hdigits]
  dsimp only
  rw [if_neg (by omega), if_neg (by omega)]
  split
  · rename_i hexponent
    refine ofRatio_of_has hcanonical hm (Nat.mul_pos hpos (hten _)) Nat.one_pos ?_ negative
    rw [Nat.cast_mul, cast_pow_toNat 10 hexponent, Nat.cast_one, div_one]
    exact h
  · rename_i hexponent
    refine ofRatio_of_has hcanonical hm hpos (hten _) ?_ negative
    rw [cast_pow_toNat 10 (by omega), zpow_neg, div_inv_eq_mul]
    exact h

/-- **The shortest digits of a number read back as the number**, in whatever way they are written as a decimal
fraction. -/
theorem ofDecimal_of_value {m digits : Nat} {e exponent : Int} (hcanonical : IsCanonical m e)
    (hvalue : digits * 10 ^ exponent = (dropZeros 400 (shortest m e)).value) (negative : Bool) :
    ofDecimal negative digits exponent = .finite negative m e := by
  by_cases hm : m = 0
  · subst hm
    have hzero : (digits : ℚ) * 10 ^ exponent = 0 := by
      rw [hvalue, show dropZeros 400 (shortest 0 e) = ⟨0, 0⟩ from rfl, Digits.value, Nat.cast_zero, zero_mul]
    have hdigits : digits = 0 := by
      rw [mul_eq_zero, Nat.cast_eq_zero] at hzero
      exact hzero.resolve_right (zpow_ne_zero _ (by norm_num))
    have hleast : e = minExponent := hcanonical.full.resolve_left (by decide)
    rw [hdigits, ofDecimal, if_pos rfl, zero, hleast]
  · obtain ⟨hne, hhas⟩ := dropZeros_readsAs (shortest_readsAs hcanonical hm) 400
    have hpos : (digits : ℚ) * 10 ^ exponent ≠ 0 := by
      rw [hvalue, Digits.value]
      positivity
    have hdigits : digits ≠ 0 := by
      rintro rfl
      exact hpos (by rw [Nat.cast_zero, zero_mul])
    rw [← hvalue] at hhas
    exact ofDecimal_of_has hcanonical hm hdigits hhas negative

end LayerLint.Binary64
