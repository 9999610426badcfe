import LayerLint.Proofs.Binary64.Shortest

/-!
# The nearest number

A fraction is rounded as if there was no largest exponent, to the number at the least distance and of two of them to the
one with the even mantissa (`IsNearest`); what is then too large for the format is infinite (`RoundsTo`). There is one
such number (`IsNearest.unique`, `RoundsTo.unique`), and `ofRatio` and `ofDecimal` compute it (`ofRatio_roundsTo`,
`ofDecimal_roundsTo`).

The numbers next to a fraction are multiples of its unit: below it, numbers with a smaller exponent do not count
(`IsForm.lt_of_exponent_lt`), so that the nearest whole number of units is the nearest number (`isNearest_of_units`).
-/

namespace LayerLint.Binary64

/-- The one form of a number, if there was no largest exponent. -/
structure IsForm (m : Nat) (e : Int) : Prop where
  mantissa : m < 2 ^ 53
  least : minExponent ≤ e
  full : 2 ^ 52 ≤ m ∨ e = minExponent

/-- **The number nearest to a fraction.** Of two equally near numbers it is the one with the even mantissa. -/
structure IsNearest (q : ℚ) (m : Nat) (e : Int) : Prop where
  form : IsForm m e
  nearest : ∀ {n : Nat} {f : Int}, IsForm n f → |q - m * 2 ^ e| ≤ |q - n * 2 ^ f|
  even : ∀ {n : Nat} {f : Int}, IsForm n f → |q - m * 2 ^ e| = |q - n * 2 ^ f| → ¬ (m = n ∧ e = f) → m % 2 = 0

/-- What a fraction without a sign is rounded to. -/
inductive RoundsTo (q : ℚ) : Binary64 → Prop
  | finite {m : Nat} {e : Int} (h : IsNearest q m e) (hfits : e ≤ maxExponent) : RoundsTo q (.finite false m e)
  | infinite {m : Nat} {e : Int} (h : IsNearest q m e) (hlarge : maxExponent < e) : RoundsTo q (.infinite false)

variable {q : ℚ} {m n : Nat} {e f : Int}

/-! ## Forms and their fractions -/

/-- The number with the smaller exponent is smaller. -/
theorem IsForm.lt_of_exponent_lt (hm : IsForm m e) (hn : IsForm n f) (hlt : f < e) : (n : ℚ) * 2 ^ f < m * 2 ^ e := by
  have hfull : (2 : ℚ) ^ 52 ≤ m := by
    have hmantissa := hm.full.resolve_right (by have := hn.least; omega)
    exact_mod_cast hmantissa
  have hmantissa : (n : ℚ) < 2 ^ 53 := by exact_mod_cast hn.mantissa
  calc (n : ℚ) * 2 ^ f < 2 ^ 53 * 2 ^ f := by gcongr
    _ = 2 ^ 52 * 2 ^ (f + 1) := by rw [zpow_add_one₀ two_ne_zero]; ring
    _ ≤ m * 2 ^ e := mul_le_mul hfull (zpow_le_zpow_right₀ one_le_two (by omega)) (by positivity) (by positivity)

/-- A fraction has one form. -/
theorem IsForm.eq_of_value (hm : IsForm m e) (hn : IsForm n f) (h : (m : ℚ) * 2 ^ e = n * 2 ^ f) : m = n ∧ e = f := by
  obtain hlt | rfl | hlt := lt_trichotomy e f
  · exact absurd h (hn.lt_of_exponent_lt hm hlt).ne
  · have hpow : (2 : ℚ) ^ e ≠ 0 := by positivity
    exact ⟨by exact_mod_cast mul_right_cancel₀ hpow h, rfl⟩
  · exact absurd h.symm (hm.lt_of_exponent_lt hn hlt).ne

/-- A number counts units of every smaller exponent. -/
theorem exists_units (n : Nat) (h : e ≤ f) : ∃ k : Nat, (n : ℚ) * 2 ^ f = k * 2 ^ e := by
  refine ⟨n * 2 ^ (f - e).toNat, ?_⟩
  have hpow : ((2 ^ (f - e).toNat : Nat) : ℚ) = 2 ^ (f - e) := by
    have := cast_pow_toNat 2 (show 0 ≤ f - e by omega)
    exact_mod_cast this
  rw [Nat.cast_mul, hpow, mul_assoc, ← zpow_add₀ two_ne_zero, sub_add_cancel]

/-- Between a number and the next mantissa there is no other number. -/
theorem IsForm.succ_le_of_lt (hm : IsForm m e) (hn : IsForm n f) (hlt : (m : ℚ) * 2 ^ e < n * 2 ^ f) :
    ((m + 1 : Nat) : ℚ) * 2 ^ e ≤ n * 2 ^ f := by
  have hle : e ≤ f := by
    by_contra hless
    exact absurd hlt (hm.lt_of_exponent_lt hn (by omega)).le.not_gt
  obtain ⟨k, hk⟩ := exists_units n hle
  have hpow : (0 : ℚ) < 2 ^ e := by positivity
  rw [hk] at hlt ⊢
  have hmore : m < k := by exact_mod_cast lt_of_mul_lt_mul_right hlt hpow.le
  have : ((m + 1 : Nat) : ℚ) ≤ k := by exact_mod_cast hmore
  gcongr

/-! ## There is one nearest number -/

/-- Of two nearest numbers neither is smaller: with even mantissas they are not next to each other, and what stands
between them is nearer. -/
theorem IsNearest.not_below (h : IsNearest q m e) (h' : IsNearest q n f) : ¬ (m : ℚ) * 2 ^ e < n * 2 ^ f := by
  intro hlt
  have hne : ¬ (m = n ∧ e = f) := by
    rintro ⟨rfl, rfl⟩
    exact lt_irrefl _ hlt
  have hdist := le_antisymm (h.nearest h'.form) (h'.nearest h.form)
  have heven := h.even h'.form hdist hne
  have heven' := h'.even h.form hdist.symm fun heq => hne ⟨heq.1.symm, heq.2.symm⟩
  have hnext : IsForm (m + 1) e :=
    { mantissa := by have := h.form.mantissa; omega
      least := h.form.least
      full := h.form.full.imp_left fun hfull => by omega }
  have hpow : (0 : ℚ) < 2 ^ e := by positivity
  have hstep : (m : ℚ) * 2 ^ e < ((m + 1 : Nat) : ℚ) * 2 ^ e := by
    push_cast
    linarith
  rcases (h.form.succ_le_of_lt h'.form hlt).eq_or_lt with heq | hbetween
  · obtain ⟨rfl, -⟩ := hnext.eq_of_value h'.form heq
    omega
  · -- The fraction lies in the middle of the two numbers.
    have hmiddle : q - m * 2 ^ e = n * 2 ^ f - q := by
      rcases abs_eq_abs.mp hdist with hsame | hmiddle
      · linarith
      · linarith
    have hnearer := h'.nearest hnext
    rw [abs_of_nonpos (by linarith : q - n * 2 ^ f ≤ 0), le_abs] at hnearer
    rcases hnearer with hnearer | hnearer <;> linarith

theorem IsNearest.unique (h : IsNearest q m e) (h' : IsNearest q n f) : m = n ∧ e = f :=
  h.form.eq_of_value h'.form (le_antisymm (not_lt.mp (h'.not_below h)) (not_lt.mp (h.not_below h')))

/-- **A fraction is rounded to one number.** -/
theorem RoundsTo.unique {x y : Binary64} (hx : RoundsTo q x) (hy : RoundsTo q y) : x = y := by
  cases hx with
  | finite h hfits =>
    cases hy with
    | finite h' _ =>
      obtain ⟨rfl, rfl⟩ := h.unique h'
      rfl
    | infinite h' hlarge =>
      obtain ⟨rfl, rfl⟩ := h.unique h'
      omega
  | infinite h hlarge =>
    cases hy with
    | finite h' hfits =>
      obtain ⟨rfl, rfl⟩ := h.unique h'
      omega
    | infinite => rfl

/-! ## The nearest whole number of units -/

/-- A whole number a half away or less is as near as any other, and only a half away there is another as near. -/
theorem abs_sub_le_of_half {y : ℚ} (h : |y - m| ≤ 1 / 2) (k : Nat) :
    |y - m| ≤ |y - k| ∧ (|y - m| = |y - k| → m = k ∨ |y - m| = 1 / 2) := by
  obtain rfl | hne := eq_or_ne m k
  · exact ⟨le_rfl, fun _ => .inl rfl⟩
  · have hapart : (1 : ℚ) ≤ |(m : ℚ) - k| := by
      have hint : (1 : Int) ≤ |(m : Int) - k| := Int.one_le_abs (by omega)
      exact_mod_cast hint
    have hsum : |(m : ℚ) - k| ≤ |y - m| + |y - k| := by
      have := abs_sub_le (m : ℚ) y k
      rwa [abs_sub_comm (m : ℚ) y] at this
    exact ⟨by linarith, fun heq => .inr (by linarith)⟩

/-- **The whole number of units next to a fraction is the nearest number**, if the fraction has a full mantissa of these
units or they are the smallest ones. -/
theorem isNearest_of_units (hform : IsForm n f) (hvalue : (n : ℚ) * 2 ^ f = m * 2 ^ e)
    (hleast : minExponent ≤ e) (hunit : e = minExponent ∨ 2 ^ 52 * 2 ^ e ≤ q) (hnear : |q / 2 ^ e - m| ≤ 1 / 2)
    (heven : |q / 2 ^ e - m| = 1 / 2 → n % 2 = 0) : IsNearest q n f := by
  have hpow : (0 : ℚ) < 2 ^ e := by positivity
  have hscale : ∀ k : ℚ, |q - k * 2 ^ e| = |q / 2 ^ e - k| * 2 ^ e := by
    intro k
    rw [← abs_of_pos hpow, ← abs_mul, abs_of_pos hpow]
    congr 1
    field_simp
  -- A number with a smaller exponent is farther away, all others are whole numbers of units.
  have hother : ∀ {k : Nat} {g : Int}, IsForm k g →
      |q - n * 2 ^ f| < |q - k * 2 ^ g| ∨ ∃ j : Nat, (k : ℚ) * 2 ^ g = j * 2 ^ e := by
    intro k g hk
    rcases lt_or_ge g e with hlt | hle
    · have hfull := hunit.resolve_left (by have := hk.least; omega)
      have hpower : IsForm (2 ^ 52) e := ⟨by norm_num, hleast, .inl le_rfl⟩
      have hbelow := hpower.lt_of_exponent_lt hk hlt
      push_cast at hbelow
      have hless := (abs_sub_le_of_half hnear (2 ^ 52)).1
      have hpowerScale := hscale (2 ^ 52)
      rw [abs_of_nonneg (by linarith : (0 : ℚ) ≤ q - 2 ^ 52 * 2 ^ e)] at hpowerScale
      left
      calc |q - n * 2 ^ f| = |q / 2 ^ e - m| * 2 ^ e := by rw [hvalue, hscale]
        _ ≤ |q / 2 ^ e - (2 ^ 52 : Nat)| * 2 ^ e := by gcongr
        _ = q - 2 ^ 52 * 2 ^ e := by push_cast; exact hpowerScale.symm
        _ < q - k * 2 ^ g := by linarith
        _ ≤ |q - k * 2 ^ g| := le_abs_self _
    · exact .inr (exists_units k hle)
  refine ⟨hform, ?_, ?_⟩
  · intro k g hk
    rcases hother hk with hlt | ⟨j, hj⟩
    · exact hlt.le
    · rw [hvalue, hj, hscale, hscale]
      have := (abs_sub_le_of_half hnear j).1
      gcongr
  · intro k g hk heq hne
    rcases hother hk with hlt | ⟨j, hj⟩
    · exact absurd heq hlt.ne
    · rw [hvalue, hj, hscale, hscale] at heq
      rcases (abs_sub_le_of_half hnear j).2 (mul_right_cancel₀ hpow.ne' heq) with rfl | hhalf
      · exact absurd (hform.eq_of_value hk (hvalue.trans hj.symm)) hne
      · exact heven hhalf

/-- A fraction is rounded to a whole number at most a half away, and half away to an even one. -/
theorem roundQuotient_near {a d : Nat} (hd : 0 < d) :
    |(a : ℚ) / d - roundQuotient a d| ≤ 1 / 2 ∧
      (|(a : ℚ) / d - roundQuotient a d| = 1 / 2 → roundQuotient a d % 2 = 0) := by
  have hdQ : (0 : ℚ) < d := by exact_mod_cast hd
  have hsplit := Nat.div_add_mod a d
  have hrest := Nat.mod_lt a hd
  rw [roundQuotient]
  generalize a / d = quotient at *
  generalize a % d = rest at *
  have hvalue : (a : ℚ) / d = quotient + rest / d := by
    rw [← hsplit]
    push_cast
    field_simp
  rw [hvalue]
  split
  · rename_i hup
    have hhalf : (1 : ℚ) / 2 ≤ rest / d := by
      rw [le_div_iff₀ hdQ]
      have : (d : ℚ) ≤ 2 * rest := by exact_mod_cast (by omega : d ≤ 2 * rest)
      linarith
    have hone : (rest : ℚ) / d < 1 := by
      rw [div_lt_one hdQ]
      exact_mod_cast hrest
    push_cast
    rw [abs_of_nonpos (by linarith)]
    refine ⟨by linarith, ?_⟩
    intro htie
    have hmiddle : (rest : ℚ) / d = 1 / 2 := by linarith
    rw [div_eq_div_iff hdQ.ne' two_ne_zero] at hmiddle
    have : rest * 2 = 1 * d := by exact_mod_cast hmiddle
    omega
  · rename_i hdown
    have hhalf : (rest : ℚ) / d ≤ 1 / 2 := by
      rw [div_le_iff₀ hdQ]
      have : (2 : ℚ) * rest ≤ d := by exact_mod_cast (by omega : 2 * rest ≤ d)
      linarith
    have hnonneg : (0 : ℚ) ≤ rest / d := by positivity
    rw [add_sub_cancel_left, abs_of_nonneg hnonneg]
    refine ⟨hhalf, ?_⟩
    intro htie
    rw [div_eq_div_iff hdQ.ne' two_ne_zero] at htie
    have : rest * 2 = 1 * d := by exact_mod_cast htie
    omega

/-! ## Rounding -/

/-- What is smaller than half the smallest number is rounded to zero. -/
theorem isNearest_zero (hq : 0 ≤ q) (hsmall : q < 1 / 2 * 2 ^ minExponent) : IsNearest q 0 minExponent := by
  have hpow : (0 : ℚ) < 2 ^ minExponent := by positivity
  have hunits : |q / 2 ^ minExponent - (0 : Nat)| ≤ 1 / 2 := by
    rw [Nat.cast_zero, sub_zero, abs_of_nonneg (by positivity), div_le_iff₀ hpow]
    exact hsmall.le
  exact isNearest_of_units ⟨by norm_num, le_rfl, .inr rfl⟩ rfl le_rfl (.inl rfl) hunits fun _ => rfl

/-- The exponent for a fraction gives its units: it has a full mantissa of them, or they are the smallest ones. -/
theorem exponentFor_units {num den : Nat} (hnum : 0 < num) (hden : 0 < den) :
    minExponent ≤ exponentFor num den ∧
      (exponentFor num den = minExponent ∨ (2 : ℚ) ^ 52 * 2 ^ exponentFor num den ≤ num / den) ∧
      (num : ℚ) / den < 2 ^ 53 * 2 ^ exponentFor num den := by
  obtain ⟨top, hexponent, htopLow, htopHigh⟩ := exponentFor_eq hnum hden
  generalize exponentFor num den = e at hexponent ⊢
  refine ⟨by omega, ?_, ?_⟩
  · by_cases hmin : e = minExponent
    · exact .inl hmin
    · have htop : top = 52 + e := by omega
      rw [htop, zpow_add₀ two_ne_zero] at htopLow
      exact .inr (by exact_mod_cast htopLow)
  · calc (num : ℚ) / den < 2 ^ (top + 1) := htopHigh
      _ ≤ 2 ^ (53 + e) := zpow_le_zpow_right₀ one_le_two (by omega)
      _ = 2 ^ 53 * 2 ^ e := by rw [zpow_add₀ two_ne_zero]; norm_num

/-- The nearest number as it is written: an infinite one where it is too large, and one zero. -/
theorem IsNearest.roundsTo (h : IsNearest q m e) :
    RoundsTo q (if maxExponent < e then .infinite false else if m = 0 then zero false else .finite false m e) := by
  split
  · rename_i hlarge
    exact .infinite h hlarge
  · rename_i hfits
    split
    · rename_i hnone
      subst hnone
      obtain rfl : e = minExponent := h.form.full.resolve_left (by norm_num)
      exact .finite h (not_lt.mp hfits)
    · exact .finite h (not_lt.mp hfits)

/-- **`ofRatio` rounds to the nearest number.** -/
theorem ofRatio_roundsTo (num : Nat) {den : Nat} (hden : 0 < den) : RoundsTo (num / den) (ofRatio false num den) := by
  by_cases hzero : num = 0
  · subst hzero
    rw [ofRatio, if_pos rfl, Nat.cast_zero, zero_div]
    exact .finite (isNearest_zero le_rfl (by positivity)) (by decide)
  · obtain ⟨hleast, hunit, hhigh⟩ := exponentFor_units (Nat.pos_of_ne_zero hzero) hden
    rw [ofRatio, if_neg hzero]
    dsimp only
    generalize exponentFor num den = e at *
    obtain ⟨hd, hscaled⟩ := scaleDown_eq num hden e
    obtain ⟨hnear, heven⟩ := roundQuotient_near (a := (scaleDown num den e).1) hd
    generalize roundQuotient (scaleDown num den e).1 (scaleDown num den e).2 = m at *
    rw [hscaled] at hnear heven
    generalize (num : ℚ) / den = q at *
    have hpow : (0 : ℚ) < 2 ^ e := by positivity
    rw [← div_lt_iff₀ hpow] at hhigh
    obtain ⟨hdown, hup⟩ := abs_le.mp hnear
    have hmantissa : m ≤ 2 ^ 53 := by
      have hlt : (m : ℚ) < 2 ^ 53 + 1 := by linarith
      exact Nat.lt_succ_iff.mp (by exact_mod_cast hlt)
    by_cases hcarry : m = Nat.pow 2 53
    · -- The mantissa is rounded up to the next power of two.
      have hform : IsForm (2 ^ 52) (e + 1) := ⟨by norm_num, by omega, .inl le_rfl⟩
      have hvalue : ((2 ^ 52 : Nat) : ℚ) * 2 ^ (e + 1) = m * 2 ^ e := by
        rw [hcarry, zpow_add_one₀ two_ne_zero]
        push_cast
        ring
      rw [if_pos hcarry]
      exact (isNearest_of_units hform hvalue hleast hunit hnear fun _ => by norm_num).roundsTo
    · have hfull : 2 ^ 52 ≤ m ∨ e = minExponent := by
        rcases hunit with hmin | hfull
        · exact .inr hmin
        · left
          rw [← le_div_iff₀ hpow] at hfull
          have hlt : (2 : ℚ) ^ 52 < m + 1 := by linarith
          exact Nat.lt_succ_iff.mp (by exact_mod_cast hlt)
      have hform : IsForm m e := ⟨lt_of_le_of_ne hmantissa hcarry, hleast, hfull⟩
      rw [if_neg hcarry]
      exact (isNearest_of_units hform rfl hleast hunit hnear heven).roundsTo

/-- Every fraction without a sign has a nearest number. -/
theorem exists_isNearest (hq : 0 ≤ q) : ∃ m e, IsNearest q m e := by
  have hfraction : ((q.num.toNat : Nat) : ℚ) / q.den = q := by
    have hnum : ((q.num.toNat : Nat) : Int) = q.num := Int.toNat_of_nonneg (Rat.num_nonneg.mpr hq)
    calc ((q.num.toNat : Nat) : ℚ) / q.den = ((q.num.toNat : Nat) : Int) / q.den := by push_cast; rfl
      _ = q := by rw [hnum, Rat.num_div_den]
  have hrounds := ofRatio_roundsTo q.num.toNat q.den_pos
  rw [hfraction] at hrounds
  generalize ofRatio false q.num.toNat q.den = x at hrounds
  cases hrounds with
  | finite h | infinite h => exact ⟨_, _, h⟩

/-- Beyond the largest number a fraction has a larger exponent. -/
theorem IsNearest.large (h : IsNearest q m e) (hq : 2 ^ 53 * 2 ^ maxExponent ≤ q) : maxExponent < e := by
  by_contra hsmall
  have hnext : IsForm (2 ^ 52) (maxExponent + 1) := ⟨by norm_num, by decide, .inl le_rfl⟩
  have hbelow := hnext.lt_of_exponent_lt h.form (by omega)
  have hvalue : ((2 ^ 52 : Nat) : ℚ) * 2 ^ (maxExponent + 1) = 2 ^ 53 * 2 ^ maxExponent := by
    rw [zpow_add_one₀ two_ne_zero]
    push_cast
    ring
  have hnearer := h.nearest hnext
  rw [hvalue] at hbelow hnearer
  rw [abs_of_nonneg (by linarith), abs_of_nonneg (by linarith)] at hnearer
  linarith

/-- **`ofDecimal` rounds to the nearest number.** -/
theorem ofDecimal_roundsTo (digits : Nat) (exponent : Int) :
    RoundsTo (digits * 10 ^ exponent) (ofDecimal false digits exponent) := by
  by_cases hdigits : digits = 0
  · subst hdigits
    rw [ofDecimal, if_pos rfl, Nat.cast_zero, zero_mul]
    exact .finite (isNearest_zero le_rfl (by positivity)) (by decide)
  · obtain ⟨hfewer, hmore⟩ := length_toDigits_bounds hdigits
    have hpos : 0 < (Nat.toDigits 10 digits).length := Nat.length_toDigits_pos
    have hten : ∀ k, 0 < Nat.pow 10 k := fun _ => Nat.pow_pos (by decide)
    have hnonneg : (0 : ℚ) ≤ digits * 10 ^ exponent := by positivity
    rw [ofDecimal, if_neg hdigits]
    dsimp only
    generalize (Nat.toDigits 10 digits).length = size at *
    split
    · rename_i hlarge
      obtain ⟨m, e, hnearest⟩ := exists_isNearest hnonneg
      have hbeyond : (2 : ℚ) ^ 53 * 2 ^ maxExponent ≤ digits * 10 ^ exponent := by
        calc (2 : ℚ) ^ 53 * 2 ^ maxExponent ≤ 10 ^ (309 : Int) := greatest_lt.le
          _ ≤ 10 ^ (exponent + size - 1) := zpow_le_zpow_right₀ (by norm_num) (by omega)
          _ = 10 ^ (size - 1) * 10 ^ exponent := by
            rw [add_sub_assoc, ← Nat.cast_pred hpos, zpow_add₀ (by norm_num), zpow_natCast, mul_comm]
          _ ≤ digits * 10 ^ exponent := by gcongr; exact_mod_cast hfewer
      exact .infinite hnearest (hnearest.large hbeyond)
    · split
      · rename_i hsmall
        have hbelow : (digits : ℚ) * 10 ^ exponent < 1 / 2 * 2 ^ minExponent := by
          calc (digits : ℚ) * 10 ^ exponent < 10 ^ size * 10 ^ exponent := by gcongr; exact_mod_cast hmore
            _ = 10 ^ (exponent + size) := by rw [zpow_add₀ (by norm_num), zpow_natCast, mul_comm]
            _ ≤ 10 ^ (-324 : Int) := zpow_le_zpow_right₀ (by norm_num) (by omega)
            _ < 1 / 2 * 2 ^ minExponent := half_least
        exact .finite (isNearest_zero hnonneg hbelow) (by decide)
      · split
        · rename_i hexponent
          have hrounds := ofRatio_roundsTo (digits * Nat.pow 10 exponent.toNat) Nat.one_pos
          rwa [Nat.cast_mul, cast_pow_toNat 10 hexponent, Nat.cast_one, div_one] at hrounds
        · rename_i hexponent
          have hrounds := ofRatio_roundsTo digits (hten (-exponent).toNat)
          rwa [cast_pow_toNat 10 (by omega), zpow_neg, div_inv_eq_mul] at hrounds

end LayerLint.Binary64
