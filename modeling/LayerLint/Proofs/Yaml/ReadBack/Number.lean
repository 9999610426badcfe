import Mathlib.Data.List.TakeWhile
import LayerLint.Yaml.Naming
import LayerLint.Yaml.ScalarText
import LayerLint.Yaml.Printer.Style
import LayerLint.Proofs.Binary64.Shortest
import LayerLint.Proofs.Text.Search
import LayerLint.Proofs.Yaml.ReadBack.Basic

/-!
# Numbers read back

Scalars that are no texts are written as plain text whose form gives them their tag, and this text stands for the scalar
again (`Scalar.isPlain`): nothing, truth values, whole numbers that can be written and finite floating-point numbers.
-/

namespace LayerLint.Yaml

/-! ## Characters of numbers -/

/-- The character occurs in numbers. -/
def isNumeric (c : Char) : Bool := c.isDigit || c ∈ ['-', '+', '.', 'e']

/-- What makes a character of numbers harmless in plain text and easy to read. -/
@[mk_iff]
structure IsHarmless (c : Char) : Prop where
  ordinary : isOrdinary c = true
  separator : isSeparator c = false
  plain : Text.plainDigit c = c
  blank : Text.isPlainBlank c = false
  lower : c.toLower = c
  colon : c ≠ ':'
  comment : c ≠ '#'
  underscore : c ≠ '_'

instance (c : Char) : Decidable (IsHarmless c) := decidable_of_iff _ (isHarmless_iff c).symm

theorem lt_of_isNumeric {c : Char} (h : isNumeric c) : c.toNat < 102 := by
  have hval : c.val.toNat = c.toNat := rfl
  simp only [isNumeric, Char.isDigit, Bool.or_eq_true, Bool.and_eq_true, decide_eq_true_eq,
    UInt32.le_iff_toNat_le, List.mem_cons, List.not_mem_nil, or_false] at h
  rcases h with h | rfl | rfl | rfl | rfl
  · simp at h
    omega
  all_goals decide

theorem isHarmless_of_isNumeric {c : Char} (h : isNumeric c) : IsHarmless c := by
  have hall : ∀ n < 102, isNumeric (Char.ofNat n) → IsHarmless (Char.ofNat n) := by decide
  simpa using hall c.toNat (lt_of_isNumeric h) (by simpa using h)

theorem toList_toLower (s : String) : s.toLower.toList = s.toList.map Char.toLower := String.toList_map

theorem isNumeric_of_isDigit {c : Char} (h : c.isDigit) : isNumeric c := by simp [isNumeric, h]

theorem IsHarmless.isBreak {c : Char} (h : IsHarmless c) : isBreak c = false := by
  have := h.separator
  rw [isSeparator, Bool.or_eq_false_iff] at this
  exact this.1

/-- What begins a number: a digit, perhaps behind a minus sign. -/
def beginsNumber : List Char → Bool
  | '-' :: c :: _ => c.isDigit
  | c :: _ => c.isDigit
  | [] => false

section Plain

variable {s : List Char}

theorem hasNeighbours_of_first {p q : Char → Bool} (h : ∀ c ∈ s, p c = false) : hasNeighbours p q s = false := by
  induction s with
  | nil => rfl
  | cons c r ih =>
    rw [hasNeighbours_cons, h c (.head _), ih fun d hd => h d (.tail _ hd)]
    rfl

theorem hasLooseColon_of_forall (h : ∀ c ∈ s, c ≠ ':') : hasLooseColon s = false := by
  induction s with
  | nil => rfl
  | cons c r ih =>
    rw [hasLooseColon_cons, beq_eq_false_iff_ne.mpr (h c (.head _)), ih fun d hd => h d (.tail _ hd)]
    rfl

theorem hasIndicatorAtStart_of_digit {c : Char} (hc : c.isDigit) (r : List Char) :
    hasIndicatorAtStart (c :: r) = false ∧ hasIndicatorAtStart ('-' :: c :: r) = false := by
  have hlt := lt_of_isNumeric (isNumeric_of_isDigit hc)
  have hall : ∀ n < 102, (Char.ofNat n).isDigit → leadIndicators.contains (Char.ofNat n) = false ∧
      ['?', ':', '-'].contains (Char.ofNat n) = false ∧ isSeparator (Char.ofNat n) = false ∧ Char.ofNat n ≠ '-' ∧
        Char.ofNat n ≠ '.' := by decide
  have hfacts := hall c.toNat hlt (by simpa using hc)
  simp only [Char.ofNat_toNat] at hfacts
  have hminus : '-' ∉ leadIndicators := by decide
  obtain ⟨hlead, hsign, hseparator, hne, hne'⟩ := hfacts
  constructor
  · rw [hasIndicatorAtStart.eq_def]
    split <;> simp_all
  · rw [hasIndicatorAtStart.eq_def]
    split
    · simp_all
    · simp_all
    · rename_i heq
      obtain ⟨rfl, rfl⟩ := List.cons.inj heq
      simp [hminus, hseparator]
    · simp_all

theorem beginsNumber_append {c : Char} (hc : c.isDigit) (negative : Bool) (r : List Char) :
    beginsNumber ((if negative then ['-'] else []) ++ c :: r) := by
  cases negative with
  | true => exact hc
  | false =>
    rw [if_neg (by simp), List.nil_append, beginsNumber.eq_def]
    split <;> simp_all

/-- A text of such characters that begins as a number can be written plain. -/
theorem allowsPlain_of_numeric (h : ∀ c ∈ s, isNumeric c) (hbegins : beginsNumber s) : allowsPlain s := by
  have hharmless := fun c hc => isHarmless_of_isNumeric (h c hc)
  have hspace : ∀ c ∈ s, c ≠ ' ' := fun c hc => by
    rintro rfl
    exact absurd (hharmless _ hc).separator (by decide)
  have hend : hasLooseEnd s = false := by
    rw [hasLooseEnd, Bool.or_eq_false_iff]
    constructor
    · cases hhead : s.head? with
      | none => rfl
      | some c =>
        have hc := List.mem_of_mem_head? hhead
        simp [hspace c hc, (hharmless c hc).isBreak]
    · cases hlast : s.getLast? with
      | none => rfl
      | some c =>
        have hc := List.mem_of_getLast? hlast
        simp [hspace c hc, (hharmless c hc).isBreak]
  have hmulti : isMultiline s = false := List.any_eq_false.mpr fun c hc => by simp [(hharmless c hc).isBreak]
  have hescapes : needsEscapes s = false := by
    rw [needsEscapes, Bool.or_eq_false_iff]
    exact ⟨hasNeighbours_of_first fun c hc => beq_eq_false_iff_ne.mpr (hspace c hc),
      List.any_eq_false.mpr fun c hc => by simp [(hharmless c hc).ordinary]⟩
  have hstart : hasIndicatorAtStart s = false := by
    rw [beginsNumber.eq_def] at hbegins
    split at hbegins
    · exact (hasIndicatorAtStart_of_digit hbegins _).2
    · exact (hasIndicatorAtStart_of_digit hbegins _).1
    · cases hbegins
  have hindicator : hasIndicator s = false := by
    rw [hasIndicator, hstart, hasLooseColon_of_forall fun c hc => (hharmless c hc).colon,
      hasNeighbours_of_first fun c hc => (hharmless c hc).separator]
    rfl
  simp [allowsPlain, hend, hmulti, hescapes, hindicator]

/-- No truth value begins as a number. -/
theorem not_truthWord (hbegins : beginsNumber s) : truthWords.any (·.1 == String.ofList s) = false := by
  have hwords : ∀ word ∈ truthWords, beginsNumber word.1.toList = false := by decide
  refine List.any_eq_false.mpr fun word hword heq => ?_
  have := hwords word hword
  rw [beq_iff_eq.mp heq, String.toList_ofList, hbegins] at this
  cases this

end Plain

/-! ## Digits -/

/-- The value of digits, counted on from a number. -/
theorem digitsValue_append (base : Nat) (a b : List Char) :
    digitsValue base (a ++ b) = b.foldl (fun n c => base * n + digitValue c) (digitsValue base a) := by
  rw [digitsValue, digitsValue, List.foldl_append]

theorem digitValue_zero : digitValue '0' = 0 := by decide

theorem digitsValue_zeros_append (k : Nat) (s : List Char) :
    digitsValue 10 (List.replicate k '0' ++ s) = digitsValue 10 s := by
  induction k with
  | zero => rfl
  | succ k ih => rw [List.replicate_succ, List.cons_append, ← ih]; rfl

theorem digitsValue_append_zeros (s : List Char) (k : Nat) :
    digitsValue 10 (s ++ List.replicate k '0') = digitsValue 10 s * 10 ^ k := by
  rw [digitsValue_append]
  generalize digitsValue 10 s = n
  induction k generalizing n with
  | zero => simp
  | succ k ih =>
    rw [List.replicate_succ, List.foldl_cons, ih, digitValue_zero, Nat.pow_succ]
    ring

/-- Digits stand for the number that they are the digits of. -/
theorem digitsValue_eq {s : List Char} (h : ∀ c ∈ s, c.isDigit) : digitsValue 10 s = Nat.ofDigitChars 10 s 0 := by
  rw [digitsValue]
  generalize 0 = init
  induction s generalizing init with
  | nil => rfl
  | cons c s ih =>
    rw [List.foldl_cons, ih (fun d hd => h d (.tail _ hd)), digitValue, if_pos (h c (.head _))]
    rfl

theorem digitsValue_toDigits (n : Nat) : digitsValue 10 (Nat.toDigits 10 n) = n := by
  rw [digitsValue_eq fun c hc => Nat.isDigit_of_mem_toDigits (by decide) (by decide) hc]
  exact Nat.ofDigitChars_toDigits (by decide) (by decide)

/-- The digits of a number other than zero begin with another digit than zero. -/
theorem toDigits_cons {n : Nat} (hn : n ≠ 0) : ∃ c r, Nat.toDigits 10 n = c :: r ∧ c ≠ '0' ∧ c.isDigit := by
  induction n using Nat.strong_induction_on with
  | _ n ih =>
    rw [Nat.toDigits_eq_if (by decide)]
    split
    · rename_i hlt
      refine ⟨_, [], rfl, ?_⟩
      have hall : ∀ n < 10, n ≠ 0 → n.digitChar ≠ '0' ∧ n.digitChar.isDigit := by decide
      exact hall n hlt hn
    · rename_i hge
      obtain ⟨c, r, hdigits, hc⟩ := ih (n / 10) (by omega) (by omega)
      exact ⟨c, r ++ [_], by rw [hdigits]; rfl, hc⟩

/-! ## Whole numbers -/

/-- The text of a whole number: its digits behind its sign. -/
def intDigits (n : Int) : List Char := (if n < 0 then ['-'] else []) ++ Nat.toDigits 10 n.natAbs

theorem toList_toString (n : Int) : (toString n).toList = intDigits n := by
  cases n with
  | ofNat n =>
    rw [intDigits, if_neg (by simp)]
    exact Nat.toList_repr
  | negSucc n =>
    rw [intDigits, if_pos (Int.negSucc_lt_zero n)]
    exact (String.toList_append ..).trans (congrArg _ Nat.toList_repr)

theorem isDigit_of_mem_toDigits {n : Nat} {c : Char} (h : c ∈ Nat.toDigits 10 n) : c.isDigit :=
  Nat.isDigit_of_mem_toDigits (by decide) (by decide) h

/-- A sign is no part of the digits behind it. -/
theorem dropSign_append {c : Char} (hc : c.isDigit) (negative : Bool) (r : List Char) :
    dropSign ((if negative then ['-'] else []) ++ c :: r) = c :: r := by
  cases negative with
  | true => rfl
  | false =>
    have hne : c ≠ '-' ∧ c ≠ '+' := ⟨(by rintro rfl; cases hc), (by rintro rfl; cases hc)⟩
    rw [if_neg (by simp), List.nil_append, dropSign.eq_def]
    split <;> simp_all

theorem intDigits_eq {n : Int} (hn : n ≠ 0) : ∃ c r, intDigits n = (if decide (n < 0) then ['-'] else []) ++ c :: r ∧
    Nat.toDigits 10 n.natAbs = c :: r ∧ c ≠ '0' ∧ c.isDigit ∧ ∀ d ∈ r, d.isDigit := by
  obtain ⟨c, r, hdigits, hne, hc⟩ := toDigits_cons (Int.natAbs_ne_zero.mpr hn)
  refine ⟨c, r, by simp [intDigits, hdigits], hdigits, hne, hc, fun d hd => ?_⟩
  exact isDigit_of_mem_toDigits (n := n.natAbs) (hdigits ▸ .tail _ hd)

theorem dropWhile_digits {s : List Char} (h : ∀ c ∈ s, c.isDigit) (rest : List Char) :
    (s ++ rest).dropWhile (orUnderscore Char.isDigit) = rest.dropWhile (orUnderscore Char.isDigit) := by
  induction s with
  | nil => rfl
  | cons c s ih =>
    rw [List.cons_append, List.dropWhile_cons_of_pos (by simp [orUnderscore, h c (.head _)]),
      ih fun d hd => h d (.tail _ hd)]

/-- The form of a whole number. -/
theorem isIntText_intDigits (n : Int) : isIntText (intDigits n) ∧ isFloatText (intDigits n) = false := by
  by_cases hn : n = 0
  · subst hn
    decide
  · obtain ⟨c, r, htext, -, hne, hc, hr⟩ := intDigits_eq hn
    have hdrop := dropWhile_digits hr []
    rw [List.append_nil] at hdrop
    have hpoint : c ≠ '.' := by rintro rfl; cases hc
    rw [isIntText, isFloatText, htext, dropSign_append hc]
    constructor
    · split <;> simp_all [-List.dropWhile_eq_nil_iff]
    · split <;> simp_all [afterSixties?, -List.dropWhile_eq_nil_iff]

/-- Characters of numbers stand for themselves, and none is a blank at an end. -/
theorem numeral_of_numeric {s : List Char} (h : ∀ c ∈ s, isNumeric c) : Text.numeral s = s := by
  have hplain : s.map Text.plainDigit = s :=
    (List.map_congr_left fun c hc => (isHarmless_of_isNumeric (h c hc)).plain).trans (List.map_id' s)
  have hdrop : ∀ l : List Char, (∀ c ∈ l, isNumeric c) → l.dropWhile Text.isPlainBlank = l := fun l hl => by
    cases l with
    | nil => rfl
    | cons c l => rw [List.dropWhile_cons_of_neg (by simp [(isHarmless_of_isNumeric (hl c (.head _))).blank])]
  rw [Text.numeral, hplain, Text.trimChars, hdrop s h, hdrop _ fun c hc => h c (List.mem_reverse.mp hc),
    List.reverse_reverse]

theorem digitValue_lt {c : Char} (hc : c.isDigit) : digitValue c < 10 := by
  have hall : ∀ n < 102, (Char.ofNat n).isDigit → digitValue (Char.ofNat n) < 10 := by decide
  simpa using hall c.toNat (lt_of_isNumeric (isNumeric_of_isDigit hc)) (by simpa using hc)

/-- Digits are read in base ten unless there are too many. -/
theorem int_digits {c : Char} {r : List Char} (hc : c.isDigit) (hr : ∀ d ∈ r, d.isDigit)
    (hcount : (c :: r).length ≤ Text.maxDigits) : int 10 (c :: r) = .ok (digitsValue 10 (c :: r)) := by
  have hdigits : ∀ d ∈ c :: r, d.isDigit := List.forall_mem_cons.mpr ⟨hc, hr⟩
  have hnumeral : Text.numeral (c :: r) = c :: r :=
    numeral_of_numeric fun d hd => isNumeric_of_isDigit (hdigits d hd)
  have hsign : dropSign (c :: r) = c :: r := dropSign_append hc false r
  have hbase : dropBase 10 (c :: r) = c :: r := by
    rw [dropBase.eq_def]
    dsimp only
    split <;> simp_all
  have hvalues : ∀ d ∈ c :: r, decide (digitValue d < 10) = true := fun d hd =>
    decide_eq_true (digitValue_lt (hdigits d hd))
  have hall : allSome (fun c => decide (digitValue c < 10)) (c :: r) = true := by
    rw [allSome, List.isEmpty_cons, Bool.not_false, Bool.true_and, List.all_eq_true]
    exact hvalues
  have hminus : c ≠ '-' := by rintro rfl; cases hc
  rw [int, hnumeral, hsign, hbase]
  simp only [List.takeWhile_eq_self_iff.mpr hvalues, not_lt.mpr hcount, and_false, hall, if_true, List.head?_cons,
    Option.some.injEq, hminus, if_false]

/-- A character of numbers is neither an underscore nor a colon. -/
theorem filter_underscore {s : List Char} (h : ∀ c ∈ s, isNumeric c) : s.filter (· != '_') = s :=
  List.filter_eq_self.mpr fun c hc => bne_iff_ne.mpr (isHarmless_of_isNumeric (h c hc)).underscore

theorem contains_colon {s : List Char} (h : ∀ c ∈ s, isNumeric c) : s.contains ':' = false := by
  rw [Bool.eq_false_iff]
  intro hmem
  exact (isHarmless_of_isNumeric (h ':' (by simpa using hmem))).colon rfl

theorem signed?_append {c : Char} (hc : c.isDigit) (negative : Bool) (r : List Char) :
    signed? ((if negative then ['-'] else []) ++ c :: r) = some (negative, c :: r) := by
  cases negative with
  | true => rfl
  | false =>
    have hne : c ≠ '-' ∧ c ≠ '+' := ⟨(by rintro rfl; cases hc), (by rintro rfl; cases hc)⟩
    rw [if_neg (by simp), List.nil_append, signed?.eq_def]
    split <;> simp_all

theorem isNumeric_sign {negative : Bool} {c : Char} (h : c ∈ (if negative then ['-'] else [])) : isNumeric c := by
  cases negative with
  | true => exact List.mem_singleton.mp h ▸ by decide
  | false => cases h

/-- The text of a whole number consists of characters of numbers and begins as one. -/
theorem intDigits_numeric (n : Int) : (∀ c ∈ intDigits n, isNumeric c) ∧ beginsNumber (intDigits n) := by
  by_cases hn : n = 0
  · subst hn
    exact ⟨List.all_eq_true.mp (by decide), by decide⟩
  · obtain ⟨c, r, htext, -, -, hc, hr⟩ := intDigits_eq hn
    rw [htext]
    refine ⟨fun d hd => ?_, beginsNumber_append hc _ r⟩
    rcases List.mem_append.mp hd with hd | hd
    · exact isNumeric_sign hd
    · exact isNumeric_of_isDigit ((List.mem_cons.mp hd).elim (· ▸ hc) (hr d))

/-- A number that can be written has no more digits than are read. -/
theorem length_toDigits_of_isWritable {n : Int} (h : Text.isWritable n = true) :
    (Nat.toDigits 10 n.natAbs).length ≤ Text.maxDigits := by
  have hlength : ∀ {most}, 0 < most → n.natAbs < Nat.pow 10 most → (Nat.toDigits 10 n.natAbs).length ≤ most :=
    fun hmost hlt => (Nat.length_toDigits_le_iff (by decide) hmost).mpr hlt
  exact hlength (by decide) (of_decide_eq_true h)

/-- **A whole number is read from its text.** -/
theorem intOfText_intDigits {n : Int} (h : Text.isWritable n = true) : intOfText (intDigits n) = .ok n := by
  by_cases hn : n = 0
  · subst hn
    decide
  · obtain ⟨c, r, htext, hdigits, hne, hc, hr⟩ := intDigits_eq hn
    have hall : ∀ d ∈ c :: r, isNumeric d :=
      List.forall_mem_cons.mpr ⟨isNumeric_of_isDigit hc, fun d hd => isNumeric_of_isDigit (hr d hd)⟩
    have hfilter := filter_underscore (intDigits_numeric n).1
    have hvalue : digitsValue 10 (c :: r) = n.natAbs := by rw [← hdigits, digitsValue_toDigits]
    have hint := int_digits hc hr (hdigits ▸ length_toDigits_of_isWritable h)
    rw [intOfText, hfilter, htext, signed?_append hc]
    simp only [bind, Except.bind, pure, Except.pure]
    split
    · simp_all
    · simp_all
    · simp_all
    · simp_all
    · simp_all
    · rw [contains_colon hall, if_neg (by simp), hint, hvalue]
      by_cases hneg : n < 0 <;> simp only [hneg, decide_true, decide_false] <;> grind

/-! ## Decimal fractions -/

/-- The text of a decimal fraction: digits on both sides of a point, and perhaps an exponent behind its sign. -/
structure DecimalText where
  whole : List Char
  places : List Char
  exponent : Option (Bool × List Char)
  whole_ne : whole ≠ []
  places_ne : places ≠ []
  digits : ∀ c ∈ whole ++ places, c.isDigit
  exponent_digits : ∀ e ∈ exponent, e.2 ≠ [] ∧ ∀ c ∈ e.2, c.isDigit

namespace DecimalText

/-- The characters of an exponent. -/
def exponentChars : Option (Bool × List Char) → List Char
  | none => []
  | some (negative, digits) => 'e' :: (if negative then '-' else '+') :: digits

/-- The value of an exponent. -/
def exponentValue : Option (Bool × List Char) → Int
  | none => 0
  | some (negative, digits) => if negative then -(digitsValue 10 digits : Int) else digitsValue 10 digits

/-- The characters of the text. -/
def chars (t : DecimalText) : List Char := t.whole ++ '.' :: t.places ++ exponentChars t.exponent

/-- The digits without the point, as a number. -/
def coefficient (t : DecimalText) : Nat := digitsValue 10 (t.whole ++ t.places)

/-- The power of ten of the last place. -/
def power (t : DecimalText) : Int := exponentValue t.exponent - t.places.length

variable (t : DecimalText)

theorem exists_cons : ∃ c r, t.whole = c :: r ∧ c.isDigit ∧ ∀ d ∈ r, d.isDigit := by
  obtain ⟨c, r, hwhole⟩ := List.exists_cons_of_ne_nil t.whole_ne
  have hdigits := fun d hd => t.digits d (List.mem_append_left _ hd)
  rw [hwhole] at hdigits
  exact ⟨c, r, hwhole, List.forall_mem_cons.mp hdigits⟩

theorem isNumeric_chars : ∀ c ∈ t.chars, isNumeric c := by
  intro c hc
  simp only [chars, List.append_assoc, List.cons_append, List.mem_append, List.mem_cons] at hc
  rcases hc with hc | rfl | hc | hc
  · exact isNumeric_of_isDigit (t.digits c (List.mem_append_left _ hc))
  · decide
  · exact isNumeric_of_isDigit (t.digits c (List.mem_append_right _ hc))
  · have hexponent := t.exponent_digits
    cases hvalue : t.exponent with
    | none =>
      rw [hvalue] at hc
      cases hc
    | some e =>
      obtain ⟨negative, digits⟩ := e
      rw [hvalue] at hc hexponent
      simp only [exponentChars, List.mem_cons] at hc
      rcases hc with rfl | rfl | hc
      · decide
      · cases negative <;> decide
      · exact isNumeric_of_isDigit ((hexponent _ rfl).2 c hc)

/-- An exponent does not go on with the digits before it. -/
theorem head_exponentChars (e : Option (Bool × List Char)) : ∀ c ∈ (exponentChars e).head?, c = 'e' := by
  cases e <;> simp [exponentChars]

theorem decimal?_chars : decimal? t.chars = some (Binary64.ofDecimal false t.coefficient t.power) := by
  obtain ⟨c, r, hwhole, hc, hr⟩ := t.exists_cons
  have hminus : c ≠ '-' := by rintro rfl; cases hc
  have hhead : t.chars = c :: (r ++ '.' :: t.places ++ exponentChars t.exponent) := by simp [chars, hwhole]
  have hsign : dropSign t.chars = t.chars := by
    rw [hhead]
    exact dropSign_append hc false _
  obtain ⟨htake, hdrop⟩ := Text.span_append (p := Char.isDigit) (a := t.whole)
    (b := '.' :: t.places ++ exponentChars t.exponent) (fun c hc => t.digits c (List.mem_append_left _ hc)) (by simp)
  obtain ⟨htake', hdrop'⟩ := Text.span_append (p := Char.isDigit) (a := t.places) (b := exponentChars t.exponent)
    (fun c hc => t.digits c (List.mem_append_right _ hc)) fun c hc => by
      rw [head_exponentChars _ c hc]
      rfl
  have hchars : t.chars = t.whole ++ ('.' :: t.places ++ exponentChars t.exponent) := by simp [chars]
  have hneg : decide (t.chars.head? = some '-') = false := by simp [hhead, hminus]
  have hempty : (t.whole.isEmpty && t.places.isEmpty) = false := by simp [hwhole]
  rw [decimal?, hsign, hneg, hchars, htake, hdrop]
  simp only [List.cons_append, htake', hdrop', hempty, Bool.false_eq_true, if_false]
  rw [coefficient, power]
  have hexponent := t.exponent_digits
  cases hvalue : t.exponent with
  | none => simp [exponentChars, exponentValue]
  | some e =>
    obtain ⟨negative, digits⟩ := e
    obtain ⟨hne, hdigits⟩ := hexponent _ hvalue
    obtain ⟨d, s, rfl⟩ := List.exists_cons_of_ne_nil hne
    have hall : allSome Char.isDigit (d :: s) = true := by
      rw [allSome, List.isEmpty_cons, Bool.not_false, Bool.true_and, List.all_eq_true]
      exact hdigits
    cases negative <;> simp [exponentChars, exponentValue, dropSign, hall]

/-- The form of a floating-point number. -/
theorem isFloatText_chars (negative : Bool) : isFloatText ((if negative then ['-'] else []) ++ t.chars) := by
  obtain ⟨c, r, hwhole, hc, hr⟩ := t.exists_cons
  have hhead : t.chars = c :: (r ++ '.' :: t.places ++ exponentChars t.exponent) := by simp [chars, hwhole]
  have hpoint : c ≠ '.' := by rintro rfl; cases hc
  have hdrop := dropWhile_digits hr ('.' :: t.places ++ exponentChars t.exponent)
  have hplaces := dropWhile_digits (fun c hc => t.digits c (List.mem_append_right _ hc)) (exponentChars t.exponent)
  have hexponent : isExponent ((exponentChars t.exponent).dropWhile (orUnderscore Char.isDigit)) = true := by
    have hexponent := t.exponent_digits
    cases hvalue : t.exponent with
    | none => rfl
    | some e =>
      obtain ⟨negative, digits⟩ := e
      obtain ⟨hne, hdigits⟩ := hexponent _ hvalue
      cases negative <;> simpa [exponentChars, orUnderscore, isExponent, allSome, hne] using hdigits
  have hstop : ('.' :: t.places ++ exponentChars t.exponent).dropWhile (orUnderscore Char.isDigit) =
      '.' :: t.places ++ exponentChars t.exponent := by simp [orUnderscore]
  rw [hstop, ← List.append_assoc] at hdrop
  rw [isFloatText, hhead, dropSign_append hc]
  split
  · simp_all
  · rename_i heq
    obtain ⟨rfl, rfl⟩ := List.cons.inj heq
    rw [hdrop, hc, List.cons_append]
    simp only [hplaces, hexponent, Bool.and_self]
  · simp_all

/-- A word is no number. -/
theorem toLower_ne {c : Char} (hc : c.isDigit) (r word : List Char) (hword : word.head?.all (!Char.isDigit ·)) :
    (String.ofList (c :: r)).toLower ≠ String.ofList word := by
  intro heq
  have hlist := congrArg String.toList heq
  rw [toList_toLower, String.toList_ofList, String.toList_ofList, List.map_cons] at hlist
  rw [← hlist, (isHarmless_of_isNumeric (isNumeric_of_isDigit hc)).lower] at hword
  rw [List.head?_cons, Option.all_some, hc] at hword
  cases hword

theorem float_chars : float t.chars = .ok (Binary64.ofDecimal false t.coefficient t.power) := by
  obtain ⟨c, r, hwhole, hc, hr⟩ := t.exists_cons
  have hhead : t.chars = c :: (r ++ '.' :: t.places ++ exponentChars t.exponent) := by simp [chars, hwhole]
  have hnumeral : Text.numeral t.chars = t.chars := numeral_of_numeric t.isNumeric_chars
  have hsign : dropSign t.chars = t.chars := by
    rw [hhead]
    exact dropSign_append hc false _
  have hword : ∀ word : List Char, word.head?.all (!Char.isDigit ·) →
      ((String.ofList t.chars).toLower == String.ofList word) = false := fun word h =>
    beq_eq_false_iff_ne.mpr (hhead ▸ toLower_ne hc _ word h)
  have hinf := hword ['i', 'n', 'f'] (by decide)
  have hinfinity := hword ['i', 'n', 'f', 'i', 'n', 'i', 't', 'y'] (by decide)
  have hnan := hword ['n', 'a', 'n'] (by decide)
  rw [float, hnumeral, hsign]
  simp only [show "inf" = String.ofList ['i', 'n', 'f'] from rfl, hinf,
    show "infinity" = String.ofList ['i', 'n', 'f', 'i', 'n', 'i', 't', 'y'] from rfl, hinfinity,
    show "nan" = String.ofList ['n', 'a', 'n'] from rfl, hnan, Bool.or_self, Bool.false_eq_true, if_false,
    decimal?_chars]

/-- **A decimal fraction is read from its text.** -/
theorem floatOfText_chars (negative : Bool) : floatOfText ((if negative then ['-'] else []) ++ t.chars) =
    .ok (if negative then (Binary64.ofDecimal false t.coefficient t.power).neg
      else Binary64.ofDecimal false t.coefficient t.power) := by
  obtain ⟨c, r, hwhole, hc, hr⟩ := t.exists_cons
  have hhead : t.chars = c :: (r ++ '.' :: t.places ++ exponentChars t.exponent) := by simp [chars, hwhole]
  have hnumeric : ∀ d ∈ (if negative then ['-'] else []) ++ t.chars, isNumeric d := fun d hd =>
    (List.mem_append.mp hd).elim isNumeric_sign (t.isNumeric_chars d)
  have hlower : ((if negative then ['-'] else []) ++ t.chars).map Char.toLower =
    (if negative then ['-'] else []) ++ t.chars :=
    (List.map_congr_left fun d hd => (isHarmless_of_isNumeric (hnumeric d hd)).lower).trans (List.map_id' _)
  have hpoint : ∀ word : List Char, word.head? = some '.' → t.chars ≠ word := by
    rintro word hword heq
    rw [← heq, hhead, List.head?_cons, Option.some.injEq] at hword
    subst hword
    cases hc
  rw [floatOfText, floatSigned?, filter_underscore hnumeric, hlower, hhead, signed?_append hc, ← hhead]
  simp only [hpoint ".inf".toList rfl, hpoint missingWord rfl, contains_colon t.isNumeric_chars, float_chars,
    if_false,
    Bool.false_eq_true, bind, Except.bind, pure, Except.pure]

end DecimalText

/-! ## The text of a floating-point number -/

section FloatText

open Binary64 (Digits positional scientific digitText zeros)

variable {d : Digits} {t : DecimalText}

/-- The value of the text of a decimal fraction. -/
def DecimalText.value (t : DecimalText) : ℚ := t.coefficient * 10 ^ t.power

/-- Without an exponent the digits count, and how many of them stand behind the point. -/
theorem DecimalText.value_of_places (hexponent : t.exponent = none) (hplaces : (t.places.length : Int) = -d.exponent)
    (hdigits : t.coefficient = d.coefficient) : t.value = d.value := by
  rw [value, hdigits, power, hexponent, exponentValue, hplaces, zero_sub, neg_neg]
  rfl

theorem digit_of_mem_zeros {k : Nat} {c : Char} (h : c ∈ List.replicate k '0') : c.isDigit :=
  List.eq_of_mem_replicate h ▸ by decide

/-- The digits of a number begin with zero for zero only. -/
theorem toDigits_of_head? {n : Nat} (h : (Nat.toDigits 10 n).head? = some '0') :
    n = 0 ∧ Nat.toDigits 10 n = ['0'] := by
  by_cases hn : n = 0
  · subst hn
    exact ⟨rfl, rfl⟩
  · obtain ⟨c, r, htext, hc, -⟩ := toDigits_cons hn
    rw [htext, List.head?_cons] at h
    exact absurd (Option.some.inj h) hc

variable (d)

/-- A whole number: the zeros of its power of ten stand before the point, and one more behind it. -/
def DecimalText.ofWhole : DecimalText where
  whole := Nat.toDigits 10 d.coefficient ++ List.replicate d.exponent.toNat '0'
  places := ['0']
  exponent := none
  whole_ne := List.append_ne_nil_of_left_ne_nil Nat.toDigits_ne_nil _
  places_ne := List.cons_ne_nil _ _
  digits := by
    simp only [List.mem_append, List.mem_singleton]
    rintro c ((hc | hc) | rfl)
    · exact isDigit_of_mem_toDigits hc
    · exact digit_of_mem_zeros hc
    · rfl
  exponent_digits := nofun

/-- A number below one: zeros stand between the point and the digits. -/
def DecimalText.belowOne : DecimalText where
  whole := ['0']
  places := List.replicate ((-d.exponent).toNat - (Nat.toDigits 10 d.coefficient).length) '0' ++
    Nat.toDigits 10 d.coefficient
  exponent := none
  whole_ne := List.cons_ne_nil _ _
  places_ne := List.append_ne_nil_of_right_ne_nil _ Nat.toDigits_ne_nil
  digits := by
    simp only [List.cons_append, List.nil_append, List.mem_cons, List.mem_append]
    rintro c (rfl | hc | hc)
    · rfl
    · exact digit_of_mem_zeros hc
    · exact isDigit_of_mem_toDigits hc
  exponent_digits := nofun

/-- A number with digits on both sides of the point. -/
def DecimalText.cutAt (n : Nat) (hpos : 0 < n) (hlong : n < (Nat.toDigits 10 d.coefficient).length) : DecimalText where
  whole := (Nat.toDigits 10 d.coefficient).take n
  places := (Nat.toDigits 10 d.coefficient).drop n
  exponent := none
  whole_ne := by
    rw [ne_eq, List.take_eq_nil_iff, not_or]
    exact ⟨hpos.ne', Nat.toDigits_ne_nil⟩
  places_ne := by
    rw [ne_eq, List.drop_eq_nil_iff]
    omega
  digits := by
    rw [List.take_append_drop]
    exact fun c hc => isDigit_of_mem_toDigits hc
  exponent_digits := nofun

variable {d}

theorem DecimalText.value_ofWhole (h : 0 ≤ d.exponent) : (ofWhole d).value = d.value := by
  obtain ⟨k, hk⟩ := Int.eq_ofNat_of_zero_le h
  have hzeros : (ofWhole d).whole ++ (ofWhole d).places =
      Nat.toDigits 10 d.coefficient ++ List.replicate (k + 1) '0' := by
    simp [ofWhole, hk, List.replicate_succ']
  have hpower : (ofWhole d).power = -1 := rfl
  rw [value, coefficient, hzeros, digitsValue_append_zeros, digitsValue_toDigits, hpower, Binary64.Digits.value, hk,
    zpow_natCast, pow_succ, zpow_neg_one]
  push_cast
  field_simp

theorem DecimalText.value_belowOne (h : d.exponent < 0)
    (hshort : (Nat.toDigits 10 d.coefficient).length ≤ (-d.exponent).toNat) : (belowOne d).value = d.value := by
  refine value_of_places rfl ?_ ?_
  · simp only [belowOne, List.length_append, List.length_replicate]
    omega
  · have hzeros : (belowOne d).whole ++ (belowOne d).places =
        List.replicate ((-d.exponent).toNat - (Nat.toDigits 10 d.coefficient).length + 1) '0' ++
          Nat.toDigits 10 d.coefficient := by
      simp [belowOne, List.replicate_succ]
    rw [coefficient, hzeros, digitsValue_zeros_append, digitsValue_toDigits]

theorem DecimalText.value_cutAt {n : Nat} {hpos : 0 < n} {hlong : n < (Nat.toDigits 10 d.coefficient).length}
    (h : ((Nat.toDigits 10 d.coefficient).length : Int) = n - d.exponent) : (cutAt d n hpos hlong).value = d.value := by
  refine value_of_places rfl ?_ ?_
  · simp only [cutAt, List.length_drop]
    omega
  · rw [coefficient, cutAt, List.take_append_drop, digitsValue_toDigits]

/-- Digits around a point. They begin with zero only where this is the only digit before the point, except for zero with
a power of ten. -/
theorem positional_eq (d : Digits) : ∃ t : DecimalText, (positional d).toList = t.chars ∧ t.value = d.value ∧
    (d.coefficient ≠ 0 ∨ d.exponent = 0 → t.whole.head? = some '0' → t.whole = ['0']) := by
  rw [positional]
  simp only [digitText, String.length_ofList]
  split
  · rename_i hexponent
    refine ⟨.ofWhole d, by simp [DecimalText.ofWhole, DecimalText.chars, DecimalText.exponentChars, zeros],
      DecimalText.value_ofWhole hexponent, ?_⟩
    intro hd hhead
    rw [DecimalText.ofWhole, List.head?_append_of_ne_nil _ Nat.toDigits_ne_nil] at hhead
    obtain ⟨hzero, hdigits⟩ := toDigits_of_head? hhead
    have hpower := hd.resolve_left (not_not_intro hzero)
    simp [DecimalText.ofWhole, hdigits, hpower]
  · rename_i hexponent
    split
    · rename_i hshort
      exact ⟨.belowOne d, by simp [DecimalText.belowOne, DecimalText.chars, DecimalText.exponentChars, zeros],
        DecimalText.value_belowOne (not_le.mp hexponent) hshort, fun _ _ => rfl⟩
    · rename_i hlong
      refine ⟨.cutAt d ((Nat.toDigits 10 d.coefficient).length - (-d.exponent).toNat) (by omega) (by omega),
        by simp [DecimalText.cutAt, DecimalText.chars, DecimalText.exponentChars],
        DecimalText.value_cutAt (by omega), ?_⟩
      intro hd hhead
      rw [DecimalText.cutAt, List.head?_take, if_neg (by omega)] at hhead
      exact absurd (toDigits_of_head? hhead).1 (hd.resolve_right (by omega))

/-- The text of an exponent: its digits, at least two, behind its sign. -/
theorem exponentText_eq (power : Int) : ∃ digits : List Char, digits ≠ [] ∧ (∀ c ∈ digits, c.isDigit) ∧
    digitsValue 10 digits = power.natAbs ∧
      (if (digitText power.natAbs).length < 2 then "0" ++ digitText power.natAbs
        else digitText power.natAbs).toList = digits := by
  have hdigits : ∀ c ∈ Nat.toDigits 10 power.natAbs, c.isDigit := fun c hc => isDigit_of_mem_toDigits hc
  refine ⟨_, ?_, ?_, ?_, rfl⟩
  · split <;> simp [digitText, Nat.toDigits_ne_nil]
  · split
    · simpa [digitText] using hdigits
    · simpa [digitText] using hdigits
  · split
    · simpa [digitText] using (digitsValue_zeros_append 1 _).trans (digitsValue_toDigits power.natAbs)
    · simpa [digitText] using digitsValue_toDigits power.natAbs

/-- One digit before the point where others follow, and an exponent. -/
theorem toList_scientific (d : Digits) : ∃ c r exponent, Nat.toDigits 10 d.coefficient = c :: r ∧
    (scientific d).toList = c :: ((if r = [] then [] else '.' :: r) ++ DecimalText.exponentChars (some exponent)) ∧
    DecimalText.exponentValue (some exponent) = d.exponent + r.length ∧
      exponent.2 ≠ [] ∧ ∀ c ∈ exponent.2, c.isDigit := by
  obtain ⟨c, r, htext⟩ := List.exists_cons_of_ne_nil (Nat.toDigits_ne_nil (n := d.coefficient) (b := 10))
  obtain ⟨digits, hne, hdigits, hvalue, hlist⟩ := exponentText_eq (d.exponent + r.length)
  refine ⟨c, r, (decide (d.exponent + r.length < 0), digits), htext, ?_, ?_, hne, hdigits⟩
  · have hsize : (c :: r).length - 1 = r.length := rfl
    have hsign : (if d.exponent + (r.length : Int) < 0 then "-" else "+").toList =
        [if d.exponent + (r.length : Int) < 0 then '-' else '+'] := by split <;> rfl
    have hplaces : (if (c :: r).length ≤ 1 then "" else "." ++ String.ofList r).toList =
        if r = [] then [] else '.' :: r := by
      cases r <;> simp
    have hdigitText : (digitText d.coefficient).toList = c :: r := by rw [digitText, String.toList_ofList, htext]
    rw [scientific]
    simp only [hdigitText, hsize, List.take_succ_cons, List.take_zero, List.drop_succ_cons, List.drop_zero,
      String.toList_append, String.toList_ofList, hplaces, hsign, hlist, DecimalText.exponentChars, decide_eq_true_eq]
    simp
  · rw [DecimalText.exponentValue, hvalue]
    by_cases hneg : d.exponent + (r.length : Int) < 0
    · rw [decide_eq_true hneg, if_pos rfl, Int.ofNat_natAbs_of_nonpos hneg.le, neg_neg]
    · rw [decide_eq_false hneg, if_neg (by decide), Int.natAbs_of_nonneg (not_lt.mp hneg)]

/-- The text of a number with a point: where it has none, a point and a zero stand before the exponent. -/
def withPoint (text : List Char) : List Char :=
  if text.contains '.' then text
  else text.takeWhile (· != 'e') ++ (if text.contains 'e' then ['.', '0'] else []) ++ text.dropWhile (· != 'e')

theorem toList_floatText (negative : Bool) (m : Nat) (e : Int) : (floatText (.finite negative m e)).toList =
    withPoint (Binary64.toText (.finite negative m e)).toList := by
  rw [floatText, withPoint]
  · split
    · rw [String.toList_ofList]
    · rw [String.toList_append, String.toList_append, String.toList_ofList, String.toList_ofList]
      split <;> rfl
  · exact nofun
  · exact nofun

theorem withPoint_chars (negative : Bool) (t : DecimalText) :
    withPoint ((if negative then ['-'] else []) ++ t.chars) = (if negative then ['-'] else []) ++ t.chars := by
  rw [withPoint, if_pos]
  simp [DecimalText.chars]

/-- The point stands before the exponent. -/
theorem withPoint_exponent {lead : List Char} (hlead : ∀ c ∈ lead, c ≠ 'e' ∧ c ≠ '.') {exponent : Bool × List Char}
    (hdigits : ∀ c ∈ exponent.2, c.isDigit) : withPoint (lead ++ DecimalText.exponentChars (some exponent)) =
      lead ++ '.' :: '0' :: DecimalText.exponentChars (some exponent) := by
  obtain ⟨negative, digits⟩ := exponent
  have hexponent : ∀ c ∈ DecimalText.exponentChars (some (negative, digits)), c ≠ '.' := by
    simp only [DecimalText.exponentChars, List.mem_cons]
    rintro c (rfl | rfl | hc)
    · decide
    · cases negative <;> decide
    · rintro rfl
      cases hdigits _ hc
  have hpoint : (lead ++ DecimalText.exponentChars (some (negative, digits))).contains '.' = false := by
    rw [Bool.eq_false_iff]
    intro hmem
    rcases List.mem_append.mp (List.contains_iff_mem.mp hmem) with hmem | hmem
    · exact (hlead _ hmem).2 rfl
    · exact hexponent _ hmem rfl
  obtain ⟨htake, hdrop⟩ := Text.span_append (p := (· != 'e')) (fun c hc => bne_iff_ne.mpr (hlead c hc).1)
    (b := DecimalText.exponentChars (some (negative, digits))) (by simp [DecimalText.exponentChars])
  rw [withPoint, hpoint, htake, hdrop]
  simp [DecimalText.exponentChars]

/-- The digits behind a point, and a zero where there are none. -/
def placesOf : List Char → List Char
  | [] => ['0']
  | c :: r => c :: r

theorem placesOf_ne_nil (r : List Char) : placesOf r ≠ [] := by
  cases r <;> exact List.cons_ne_nil _ _

theorem isDigit_of_mem_placesOf {r : List Char} (hr : ∀ x ∈ r, x.isDigit) : ∀ x ∈ placesOf r, x.isDigit := by
  cases r with
  | nil => simp [placesOf]
  | cons c r => exact hr

/-- One digit before the point, and an exponent. -/
def DecimalText.leading (d : Digits) (exponent : Bool × List Char)
    (hexponent : exponent.2 ≠ [] ∧ ∀ x ∈ exponent.2, x.isDigit) : DecimalText where
  whole := (Nat.toDigits 10 d.coefficient).take 1
  places := placesOf ((Nat.toDigits 10 d.coefficient).drop 1)
  exponent := some exponent
  whole_ne := by
    rw [ne_eq, List.take_eq_nil_iff, not_or]
    exact ⟨one_ne_zero, Nat.toDigits_ne_nil⟩
  places_ne := placesOf_ne_nil _
  digits := by
    intro c hc
    rcases List.mem_append.mp hc with hc | hc
    · exact isDigit_of_mem_toDigits (List.mem_of_mem_take hc)
    · exact isDigit_of_mem_placesOf (fun x hx => isDigit_of_mem_toDigits (List.mem_of_mem_drop hx)) c hc
  exponent_digits := fun _ he => Option.some.inj he ▸ hexponent

theorem DecimalText.value_leading {c : Char} {r : List Char} {exponent : Bool × List Char}
    {hdigits : exponent.2 ≠ [] ∧ ∀ x ∈ exponent.2, x.isDigit} (htext : Nat.toDigits 10 d.coefficient = c :: r)
    (hexponent : exponentValue (some exponent) = d.exponent + r.length) :
    (leading d exponent hdigits).value = d.value := by
  have hvalue : d.value = digitsValue 10 (c :: r) * 10 ^ d.exponent := by
    rw [← htext, digitsValue_toDigits]
    rfl
  simp only [hvalue, value, coefficient, power, leading, htext, List.take_succ_cons, List.take_zero,
    List.drop_succ_cons, List.drop_zero, hexponent]
  cases r with
  | nil =>
    have hzero : digitsValue 10 ([c] ++ ['0']) = digitsValue 10 [c] * 10 := digitsValue_append_zeros [c] 1
    have hten : (10 : ℚ) ^ d.exponent = 10 ^ (d.exponent - 1) * 10 := by
      rw [← zpow_add_one₀ (by norm_num), sub_add_cancel]
    simp only [placesOf, hzero, hten, List.length_nil, List.length_singleton, Nat.cast_zero, Nat.cast_one, add_zero]
    push_cast
    ring
  | cons b r => simp [placesOf]

theorem DecimalText.chars_leading {c : Char} {r : List Char} {exponent : Bool × List Char}
    {hdigits : exponent.2 ≠ [] ∧ ∀ x ∈ exponent.2, x.isDigit} (htext : Nat.toDigits 10 d.coefficient = c :: r) :
    (leading d exponent hdigits).chars = c :: '.' :: (placesOf r ++ exponentChars (some exponent)) := by
  simp [chars, leading, htext]

/-- The text with an exponent is a decimal fraction once it has a point. -/
theorem withPoint_scientific (negative : Bool) (d : Digits) : ∃ t : DecimalText, t.value = d.value ∧
    withPoint ((if negative then ['-'] else []) ++ (scientific d).toList) =
      (if negative then ['-'] else []) ++ t.chars := by
  obtain ⟨c, r, exponent, htext, hchars, hexponent, hne, hdigits⟩ := toList_scientific d
  have hleading : (DecimalText.leading d exponent ⟨hne, hdigits⟩).chars =
      c :: '.' :: (placesOf r ++ DecimalText.exponentChars (some exponent)) := DecimalText.chars_leading htext
  refine ⟨.leading d exponent ⟨hne, hdigits⟩, DecimalText.value_leading htext hexponent, ?_⟩
  cases r with
  | nil =>
    have hc : c.isDigit := isDigit_of_mem_toDigits (n := d.coefficient) (by rw [htext]; exact .head _)
    have hlead : ∀ x ∈ (if negative then ['-'] else []) ++ [c], x ≠ 'e' ∧ x ≠ '.' := by
      cases negative <;> simp <;> constructor <;> rintro rfl <;> cases hc
    have hpoint := withPoint_exponent hlead hdigits
    rw [List.append_assoc, List.append_assoc] at hpoint
    rw [hchars, if_pos rfl, List.nil_append, hleading]
    exact hpoint
  | cons b r =>
    have hpoint := withPoint_chars negative (.leading d exponent ⟨hne, hdigits⟩)
    rw [hleading] at hpoint ⊢
    rw [hchars, if_neg (List.cons_ne_nil b r)]
    exact hpoint

/-- A finite number is written as a decimal fraction of the value of its shortest digits. -/
theorem floatText_eq (negative : Bool) (m : Nat) (e : Int) : ∃ t : DecimalText,
    t.value = (Binary64.dropZeros 400 (Binary64.shortest m e)).value ∧
      (floatText (.finite negative m e)).toList = (if negative then ['-'] else []) ++ t.chars := by
  have hsign : (if negative then "-" else "").toList = if negative then ['-'] else [] := by cases negative <;> rfl
  rw [toList_floatText, Binary64.toText]
  rw [String.toList_append, hsign]
  generalize Binary64.dropZeros 400 (Binary64.shortest m e) = d
  by_cases hlead : -4 ≤ d.exponent + ((digitText d.coefficient).length - 1 : Nat) ∧
      d.exponent + ((digitText d.coefficient).length - 1 : Nat) < 16
  · rw [if_pos hlead]
    obtain ⟨t, hchars, hvalue, -⟩ := positional_eq d
    exact ⟨t, hvalue, by rw [hchars, withPoint_chars]⟩
  · rw [if_neg hlead]
    exact withPoint_scientific negative d

/-- **A finite number is read from its text.** -/
theorem floatOfText_floatText {x : Binary64} (h : x.IsNumber) : isFloatText (floatText x).toList ∧
    (∀ c ∈ (floatText x).toList, isNumeric c) ∧ beginsNumber (floatText x).toList ∧
      floatOfText (floatText x).toList = .ok x := by
  cases x with
  | finite negative m e =>
    obtain ⟨t, hvalue, htext⟩ := floatText_eq negative m e
    obtain ⟨c, r, hwhole, hc, -⟩ := t.exists_cons
    rw [htext]
    refine ⟨t.isFloatText_chars negative, ?_, ?_, ?_⟩
    · intro d hd
      exact (List.mem_append.mp hd).elim isNumeric_sign (t.isNumeric_chars d)
    · rw [DecimalText.chars, hwhole, List.cons_append, List.cons_append]
      exact beginsNumber_append hc negative _
    · rw [t.floatOfText_chars, Binary64.ofDecimal_of_value h hvalue]
      cases negative <;> rfl
  | infinite negative => cases h
  | nan => cases h

end FloatText

/-! ## Scalars -/

/-- The scalar has a tag that its plain text shows: it is neither bytes nor a time, and no number that is missing,
infinite or too long to be written. -/
def Scalar.IsBasic : Scalar → Prop
  | .null | .bool _ | .text _ => True
  | .int n => Text.isWritable n = true
  | .float x => x.IsNumber
  | _ => False

/-- The scalar is written as plain text that shows its tag, and is read from this text. -/
structure Scalar.IsPlain (s : Scalar) : Prop where
  tag : Tag.ofPlain s.written.2.toList = s.written.1
  notText : s.written.1 ≠ .text ∧ s.written.1 ≠ .binary
  allows : allowsPlain s.written.2.toList
  nonempty : s.written.2.toList ≠ []
  inline : ∀ c ∈ s.written.2.toList, c ≠ ' '
  value : ∀ mark, Scalar.ofText mark s.written.1 s.written.2 = .ok s

/-- Numbers are plain. -/
theorem Scalar.isPlain_of_numeric {s : Scalar} (hnumeric : ∀ c ∈ s.written.2.toList, isNumeric c)
    (hbegins : beginsNumber s.written.2.toList) (htag : Tag.ofPlain s.written.2.toList = s.written.1)
    (hnot : s.written.1 ≠ .text ∧ s.written.1 ≠ .binary)
    (hvalue : ∀ mark, Scalar.ofText mark s.written.1 s.written.2 = .ok s) :
    s.IsPlain where
  tag := htag
  notText := hnot
  allows := allowsPlain_of_numeric hnumeric hbegins
  nonempty hnil := by
    rw [hnil] at hbegins
    cases hbegins
  inline c hc := by
    rintro rfl
    exact absurd (hnumeric _ hc) (by decide)
  value := hvalue

/-- **Every scalar but a text is plain.** -/
theorem Scalar.isPlain {s : Scalar} (h : s.IsBasic) : (∃ t, s = .text t) ∨ s.IsPlain := by
  cases s with
  | null =>
    exact .inr ⟨by decide, by decide, by decide, by decide, List.all_iff_forall_prop.mp (by decide), fun _ => rfl⟩
  | bool b =>
    have hlower : ∀ word ∈ ["true", "false"], word.toLower = word := by
      intro word hword
      rw [← String.toList_inj, toList_toLower]
      revert word
      decide
    have hvalue : ∀ mark, Scalar.ofText mark (Scalar.bool b).written.1 (Scalar.bool b).written.2 = .ok (.bool b) := by
      intro mark
      rw [Scalar.written, Scalar.ofText, truthOfWord?, hlower _ (by cases b <;> decide)]
      cases b <;> rfl
    cases b <;>
      exact .inr ⟨by decide, by decide, by decide, by decide, List.all_iff_forall_prop.mp (by decide), hvalue⟩
  | int n =>
    obtain ⟨hnumeric, hbegins⟩ := intDigits_numeric n
    obtain ⟨hform, hnotFloat⟩ := isIntText_intDigits n
    have htext : (Scalar.int n).written.2.toList = intDigits n := toList_toString n
    rw [← htext] at hnumeric hbegins hform hnotFloat
    refine .inr (Scalar.isPlain_of_numeric hnumeric hbegins ?_ (by simp [Scalar.written]) ?_)
    · rw [Tag.ofPlain, not_truthWord hbegins, hnotFloat, hform]
      rfl
    · intro mark
      change (intOfText (Scalar.int n).written.2.toList).map Scalar.int = .ok (.int n)
      rw [htext, intOfText_intDigits h]
      rfl
  | float x =>
    obtain ⟨hform, hnumeric, hbegins, hvalue⟩ := floatOfText_floatText h
    refine .inr (Scalar.isPlain_of_numeric hnumeric hbegins ?_ (by simp [Scalar.written]) ?_)
    · rw [Tag.ofPlain, Scalar.written, not_truthWord hbegins, hform]
      rfl
    · intro mark
      have hnumber : x ≠ .nan := by
        rintro rfl
        cases h
      rw [Scalar.written, Scalar.ofText, hvalue]
      simp [Except.map, Scalar.ofNumber, hnumber]
  | strayNan mark => cases h
  | text t => exact .inl ⟨t, rfl⟩
  | bytes b => cases h
  | date d => cases h
  | timestamp t => cases h

end LayerLint.Yaml
