import LayerLint.Coverage.Output
import LayerLint.Proofs.Binary64.Nearest
import LayerLint.Proofs.Text.Search
import Mathlib.Data.List.TakeWhile

/-!
# The leftmost coverage of an output

A run mentions a coverage where it prints the word `coverage:`, white space, a decimal number and a percent sign
(`Mention`). Reading at a place of the output finds the mention that stands there, with its number
(`percentHere?_text`), and nothing where none stands (`percentHere?_eq_none`). The search goes on at the next
character, so it finds the leftmost mention, whatever stands before it (`findPercent?_of_isLeftmost`), and the parsed
coverage is the number nearest to what is mentioned there (`parseOutput_leftmost`).
-/

namespace LayerLint.Coverage

/-! ## Mentions -/

/-- Decimal digits, one at least. -/
structure IsNumeral (digits : List Char) : Prop where
  nonempty : digits ≠ []
  digits : ∀ c ∈ digits, c.isDigit

/-- The text of a percentage: digits, a point with further digits if there is one, and the percent sign. -/
def percentage (whole : List Char) : Option (List Char) → List Char
  | none => whole ++ ['%']
  | some places => whole ++ '.' :: (places ++ ['%'])

/-- A coverage as a run mentions it. -/
structure Mention where
  blanks : List Char
  whole : List Char
  places : Option (List Char)
  blanks_ne : blanks ≠ []
  isBlank : ∀ c ∈ blanks, Text.isBlank c
  isNumeral : IsNumeral whole
  isNumeral_places : ∀ digits ∈ places, IsNumeral digits

namespace Mention

/-- The characters of the mention. -/
def text (m : Mention) : List Char := "coverage:".toList ++ (m.blanks ++ percentage m.whole m.places)

/-- The fraction that the digits stand for. -/
def value (m : Mention) : ℚ :=
  let places := m.places.getD []
  Nat.ofDigitChars 10 m.whole 0 + Nat.ofDigitChars 10 places 0 / 10 ^ places.length

end Mention

/-- **The leftmost mention of a text**: it stands behind some characters, and none begins before it. -/
structure IsLeftmost (s before : List Char) (m : Mention) : Prop where
  stands : before ++ m.text <+: s
  first : ∀ (before' : List Char) (m' : Mention), before' ++ m'.text <+: s → before.length ≤ before'.length

/-- An output tells no coverage: it reports that there are no tests, or it mentions none. -/
def IsUntested (s : List Char) : Prop := "no test files".toList <:+: s ∨ ∀ m : Mention, ¬ m.text <:+: s

/-! ## Digits -/

variable {digits whole rest s : List Char} {places : Option (List Char)} {x : Binary64}

/-- Digits are read up to the first other character. -/
theorem spanDigits_append (hdigits : ∀ c ∈ digits, c.isDigit) (hrest : ∀ c ∈ rest.head?, c.isDigit = false) :
    spanDigits (digits ++ rest) = (digits, rest) := by
  obtain ⟨htake, hdrop⟩ := Text.span_append hdigits hrest
  rw [spanDigits, htake, hdrop]

theorem eq_append_of_spanDigits (h : spanDigits s = (digits, rest)) :
    s = digits ++ rest ∧ ∀ c ∈ digits, c.isDigit := by
  obtain ⟨rfl, rfl⟩ := Prod.mk.inj h
  exact ⟨List.takeWhile_append_dropWhile.symm, fun c hc => List.mem_takeWhile_imp hc⟩

theorem not_isBlank_of_isDigit {c : Char} (h : c.isDigit) : Text.isBlank c = false := by
  have hcode : 48 ≤ c.toNat ∧ c.toNat ≤ 57 := by
    simp only [Char.isDigit, Bool.and_eq_true, decide_eq_true_eq, ge_iff_le, UInt32.le_iff_toNat_le] at h
    exact h
  simp only [Text.isBlank, Text.blankRanges, List.any_cons, List.any_nil, Bool.or_false, Bool.or_eq_false_iff,
    decide_eq_false_iff_not]
  omega

/-! ## Reading a percentage -/

/-- The number of a percentage. -/
def numberOf (whole : List Char) (places : Option (List Char)) : Binary64 :=
  .ofDecimal false (digitsValue (whole ++ places.getD [])) (-((places.getD []).length : Int))

theorem percent?_percentage (hwhole : IsNumeral whole) (hplaces : ∀ digits ∈ places, IsNumeral digits)
    (rest : List Char) : percent? (percentage whole places ++ rest) = some (numberOf whole places) := by
  obtain ⟨c, r, hcons⟩ := List.exists_cons_of_ne_nil hwhole.nonempty
  cases places with
  | none =>
    have htext : percentage whole none ++ rest = whole ++ '%' :: rest := by simp [percentage]
    rw [htext, percent?, spanDigits_append hwhole.digits (by simp), hcons]
    simp [numberOf]
  | some places =>
    have hdigits := hplaces places rfl
    obtain ⟨d, t, hplacesCons⟩ := List.exists_cons_of_ne_nil hdigits.nonempty
    have htext : percentage whole (some places) ++ rest = whole ++ '.' :: (places ++ '%' :: rest) := by
      simp [percentage]
    have hbehind : spanDigits (places ++ '%' :: rest) = (d :: t, '%' :: rest) := by
      rw [spanDigits_append hdigits.digits (by simp), hplacesCons]
    rw [htext, percent?, spanDigits_append hwhole.digits (by simp), hcons]
    simp only [hbehind]
    rw [hplacesCons]
    rfl

/-- A percentage is read only where one stands. -/
theorem exists_percentage_of_percent? (h : percent? s = some x) : ∃ whole places rest,
    IsNumeral whole ∧ (∀ digits ∈ places, IsNumeral digits) ∧ s = percentage whole places ++ rest := by
  rw [percent?] at h
  split at h
  · cases h
  · rename_i whole rest hne hspan
    obtain ⟨rfl, hwhole⟩ := eq_append_of_spanDigits hspan
    exact ⟨whole, none, rest, ⟨hne, hwhole⟩, nofun, by simp [percentage]⟩
  · rename_i whole r hne hspan
    obtain ⟨rfl, hwhole⟩ := eq_append_of_spanDigits hspan
    split at h
    · cases h
    · rename_i places rest hplacesNe hplacesSpan
      obtain ⟨rfl, hplaces⟩ := eq_append_of_spanDigits hplacesSpan
      refine ⟨whole, some places, rest, ⟨hne, hwhole⟩, ?_, by simp [percentage]⟩
      intro digits hdigits
      cases hdigits
      exact ⟨hplacesNe, hplaces⟩
    · cases h
  · cases h

/-! ## Reading a mention -/

namespace Mention

variable (m : Mention)

/-- The number of the mention. -/
def number : Binary64 := numberOf m.whole m.places

theorem text_eq : m.text = keyword ++ (m.blanks ++ percentage m.whole m.places) := rfl

theorem text_ne_nil : m.text ≠ [] := fun h =>
  m.blanks_ne (List.append_eq_nil_iff.mp (List.append_eq_nil_iff.mp h).2).1

/-- The number of a mention is the nearest to its value. -/
theorem roundsTo_number : Binary64.RoundsTo m.value m.number := by
  have hvalue : m.value =
      digitsValue (m.whole ++ m.places.getD []) * 10 ^ (-((m.places.getD []).length : Int)) := by
    have hdigits : digitsValue (m.whole ++ m.places.getD []) =
        10 ^ (m.places.getD []).length * Nat.ofDigitChars 10 m.whole 0 + Nat.ofDigitChars 10 (m.places.getD []) 0 := by
      calc digitsValue (m.whole ++ m.places.getD [])
          = Nat.ofDigitChars 10 (m.whole ++ m.places.getD []) 0 := rfl
        _ = Nat.ofDigitChars 10 (m.places.getD []) (Nat.ofDigitChars 10 m.whole 0) := Nat.ofDigitChars_append 0
        _ = _ := Nat.ofDigitChars_eq_ofDigitChars_zero
    rw [value, hdigits, zpow_neg, zpow_natCast]
    push_cast
    field_simp
  rw [hvalue]
  exact Binary64.ofDecimal_roundsTo _ _

end Mention

/-- A percentage begins with a digit. -/
theorem exists_percentage_cons (hwhole : IsNumeral whole) (places : Option (List Char)) :
    ∃ c r, percentage whole places = c :: r ∧ c.isDigit := by
  obtain ⟨c, r, rfl⟩ := List.exists_cons_of_ne_nil hwhole.nonempty
  cases places <;> exact ⟨c, _, rfl, hwhole.digits c (.head _)⟩

/-- A mention is read with its number, whatever follows. -/
theorem percentHere?_text (m : Mention) (rest : List Char) : percentHere? (m.text ++ rest) = some m.number := by
  obtain ⟨c, r, hblanks⟩ := List.exists_cons_of_ne_nil m.blanks_ne
  obtain ⟨d, t, hpercentage, hd⟩ := exists_percentage_cons m.isNumeral m.places
  obtain ⟨hc, hr⟩ := List.forall_mem_cons.mp (hblanks ▸ m.isBlank)
  have htext : m.text ++ rest = keyword ++ c :: (r ++ (percentage m.whole m.places ++ rest)) := by
    rw [m.text_eq, hblanks, List.append_assoc, List.cons_append, List.cons_append, List.append_assoc]
  have hprefix : keyword.isPrefixOf (m.text ++ rest) = true := by
    rw [htext, List.isPrefixOf_iff_prefix]
    exact List.prefix_append _ _
  have hdrop : (m.text ++ rest).drop keyword.length = c :: (r ++ (percentage m.whole m.places ++ rest)) := by
    rw [htext, List.drop_left]
  have hskip : (r ++ (percentage m.whole m.places ++ rest)).dropWhile Text.isBlank =
      percentage m.whole m.places ++ rest := by
    refine (Text.span_append hr ?_).2
    intro e he
    rw [hpercentage] at he
    cases he
    exact not_isBlank_of_isDigit hd
  rw [percentHere?, if_pos hprefix, hdrop]
  dsimp only
  rw [if_pos hc, hskip, percent?_percentage m.isNumeral m.isNumeral_places, Mention.number]

/-- Where something is read there stands a mention. -/
theorem exists_mention_of_percentHere? (h : percentHere? s = some x) : ∃ m : Mention, m.text <+: s := by
  rw [percentHere?] at h
  split at h
  · rename_i hprefix
    obtain ⟨behind, rfl⟩ := List.isPrefixOf_iff_prefix.mp hprefix
    rw [List.drop_left] at h
    split at h
    · rename_i c r
      split at h
      · rename_i hc
        obtain ⟨whole, places, rest, hwhole, hplaces, hr⟩ := exists_percentage_of_percent? h
        let m : Mention :=
          { blanks := c :: r.takeWhile Text.isBlank
            whole
            places
            blanks_ne := List.cons_ne_nil _ _
            isBlank := List.forall_mem_cons.mpr ⟨hc, fun _ => List.mem_takeWhile_imp⟩
            isNumeral := hwhole
            isNumeral_places := hplaces }
        refine ⟨m, rest, ?_⟩
        calc m.text ++ rest = keyword ++ c :: (r.takeWhile Text.isBlank ++ (percentage whole places ++ rest)) := by
              rw [m.text_eq, List.append_assoc, List.append_assoc]
              rfl
          _ = keyword ++ c :: r := by rw [← hr, List.takeWhile_append_dropWhile]
      · cases h
    · cases h
  · cases h

theorem percentHere?_eq_none (h : ∀ m : Mention, ¬ m.text <+: s) : percentHere? s = none := by
  by_contra hsome
  obtain ⟨x, hx⟩ := Option.ne_none_iff_exists'.mp hsome
  obtain ⟨m, hm⟩ := exists_mention_of_percentHere? hx
  exact h m hm

/-! ## The search -/

/-- The search finds the leftmost mention: at each earlier place nothing is read, for none stands there. -/
theorem findPercent?_of_isLeftmost {before : List Char} {m : Mention} (h : IsLeftmost s before m) :
    findPercent? s = some m.number := by
  induction before generalizing s with
  | nil =>
    obtain ⟨rest, rfl⟩ := h.stands
    have hread := percentHere?_text m rest
    rw [List.nil_append]
    cases htext : m.text ++ rest with
    | nil => exact absurd (List.append_eq_nil_iff.mp htext).1 m.text_ne_nil
    | cons c r =>
      rw [htext] at hread
      rw [findPercent?, hread]
  | cons c before ih =>
    obtain ⟨rest, rfl⟩ := h.stands
    have hnone : percentHere? (c :: (before ++ m.text ++ rest)) = none := by
      apply percentHere?_eq_none
      intro m' hstands
      have hfirst := h.first [] m' hstands
      simp at hfirst
    have hlater : IsLeftmost (before ++ m.text ++ rest) before m := by
      refine ⟨List.prefix_append _ _, ?_⟩
      intro before' m' hstands
      have hfirst := h.first (c :: before') m' (List.cons_prefix_cons.mpr ⟨rfl, hstands⟩)
      simpa using hfirst
    simp only [List.cons_append]
    rw [findPercent?, hnone]
    exact ih hlater

/-- A text with a mention has a leftmost one. -/
theorem exists_isLeftmost {m : Mention} (h : m.text <:+: s) : ∃ before m', IsLeftmost s before m' := by
  induction s with
  | nil => exact absurd (List.infix_nil.mp h) m.text_ne_nil
  | cons c r ih =>
    by_cases hhere : ∃ m' : Mention, m'.text <+: c :: r
    · obtain ⟨m', hm'⟩ := hhere
      exact ⟨[], m', hm', fun _ _ _ => Nat.zero_le _⟩
    · obtain ⟨before, m', hm'⟩ := ih ((List.infix_cons_iff.mp h).resolve_left fun hm => hhere ⟨m, hm⟩)
      refine ⟨c :: before, m', List.cons_prefix_cons.mpr ⟨rfl, hm'.stands⟩, ?_⟩
      intro before' m'' hstands
      cases before' with
      | nil => exact absurd ⟨m'', hstands⟩ hhere
      | cons d before' =>
        have hfirst := hm'.first before' m'' (List.cons_prefix_cons.mp hstands).2
        simpa using hfirst

theorem findPercent?_eq_none (h : ∀ m : Mention, ¬ m.text <:+: s) : findPercent? s = none := by
  induction s with
  | nil => rfl
  | cons c r ih =>
    have hnone : percentHere? (c :: r) = none := percentHere?_eq_none fun m hstands => h m hstands.isInfix
    rw [findPercent?, hnone]
    exact ih fun m hm => h m (List.infix_cons hm)

/-! ## The output of a run -/

theorem parseOutput_of_isUntested {output : String} (h : IsUntested output.toList) :
    parseOutput output = (.zero false, false) := by
  rw [parseOutput]
  split
  · rfl
  · rename_i hcontains
    have hnone := h.resolve_left fun hreport => hcontains (Text.contains_iff.mpr hreport)
    rw [findPercent?_eq_none hnone]

theorem parseOutput_of_isLeftmost {output : String} {before : List Char} {m : Mention}
    (h : ¬ IsUntested output.toList) (hfirst : IsLeftmost output.toList before m) :
    parseOutput output = (m.number, true) := by
  have hreport : ¬ Text.contains output noTestFiles = true := by
    intro hcontains
    exact h (.inl (Text.contains_iff.mp hcontains))
  rw [parseOutput, if_neg hreport, findPercent?_of_isLeftmost hfirst]

/-- **The coverage of an output is that of its leftmost mention.** No tests are found exactly where the output reports
that there are no test files or mentions no coverage. Otherwise some mention is the leftmost, and the coverage is the
number nearest to its value, whatever unfinished mentions stand before it and whatever follows. -/
theorem parseOutput_leftmost (output : String) :
    (parseOutput output = (.zero false, false) ↔ IsUntested output.toList) ∧
    (¬ IsUntested output.toList →
      (∃ before m, IsLeftmost output.toList before m) ∧
      ∀ before m, IsLeftmost output.toList before m →
        ∃ x, Binary64.RoundsTo m.value x ∧ parseOutput output = (x, true)) := by
  have htested : ¬ IsUntested output.toList → ∃ before m, IsLeftmost output.toList before m := by
    intro h
    obtain ⟨m, hm⟩ := not_forall.mp (not_or.mp h).2
    exact exists_isLeftmost (not_not.mp hm)
  refine ⟨⟨?_, parseOutput_of_isUntested⟩, fun h => ⟨htested h, ?_⟩⟩
  · intro hparse
    by_contra h
    obtain ⟨before, m, hfirst⟩ := htested h
    rw [parseOutput_of_isLeftmost h hfirst] at hparse
    exact Bool.noConfusion (Prod.mk.inj hparse).2
  · intro before m hfirst
    exact ⟨m.number, m.roundsTo_number, parseOutput_of_isLeftmost h hfirst⟩

/-- An output with three unfinished mentions; in the number of the last of them the finished one begins. -/
def interrupted : String :=
  "coverage: [no statements]\ncoverage: 12.%\ncoverage: 3coverage:\t82.5% of statements"

/-- The finished mention of that output. -/
def finished : Mention :=
  { blanks := ['\t']
    whole := ['8', '2']
    places := some ['5']
    blanks_ne := List.cons_ne_nil _ _
    isBlank := List.all_eq_true.mp (by decide)
    isNumeral := ⟨List.cons_ne_nil _ _, List.all_eq_true.mp (by decide)⟩
    isNumeral_places := by
      intro digits hdigits
      cases hdigits
      exact ⟨List.cons_ne_nil _ _, List.all_eq_true.mp (by decide)⟩ }

/-- Unfinished mentions are passed over. -/
theorem parseOutput_leftmost_interrupted :
    ¬ IsUntested interrupted.toList ∧
    ∃ before m x, IsLeftmost interrupted.toList before m ∧ Binary64.RoundsTo m.value x ∧
      parseOutput interrupted = (x, true) := by
  have htested : ¬ IsUntested interrupted.toList := by
    rintro (hreport | hnone)
    · exact absurd (Text.contains_iff.mpr hreport) (by decide +kernel)
    · refine hnone finished ⟨"coverage: [no statements]\ncoverage: 12.%\ncoverage: 3".toList, " of statements".toList,
        ?_⟩
      decide +kernel
  obtain ⟨⟨before, m, hfirst⟩, hnumber⟩ := (parseOutput_leftmost interrupted).2 htested
  obtain ⟨x, hx, hparse⟩ := hnumber before m hfirst
  exact ⟨htested, before, m, x, hfirst, hx, hparse⟩

example : ((parseOutput interrupted).1.toText, (parseOutput interrupted).2) = ("82.5", true) := by decide +kernel

end LayerLint.Coverage
