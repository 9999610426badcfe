import Mathlib.Algebra.Group.Nat.Defs
import LayerLint.Yaml.Token.Quoted
import LayerLint.Proofs.Yaml.ReadBack.Plain

/-!
# Quoted scalars read back

Text in single quotes reads back where none of its ends of lines reads as another character
(`quotedFrom_singleQuoted`). Text in double quotes, in which everything can be escaped, reads back unless a line
breaks between an escape and a space behind the width (`quotedFrom_doubleQuoted`).
-/

namespace LayerLint.Yaml

/-! ## Reading between quotes -/

theorem addBefore_ok (text more : List Char) (count n : Nat) :
    addBefore text count (.ok (more, n)) = .ok (text ++ more, n + count) := rfl

theorem addBefore_addBefore (a b : List Char) (m n : Nat) (r : Except ReadError (List Char × Nat)) :
    addBefore a m (addBefore b n r) = addBefore (a ++ b) (m + n) r := by
  cases r with
  | error e => rfl
  | ok r => simp [addBefore, Except.map, Nat.add_comm, Nat.add_left_comm]

theorem addBefore_nil_zero (r : Except ReadError (List Char × Nat)) : addBefore [] 0 r = r := by
  cases r <;> simp [addBefore, Except.map]

section Reading

variable {quote c : Char} {gap : QuotedGap}

theorem quotedFrom_skip (quote : Char) (n : Nat) (gap : QuotedGap) (a s : List Char) (h : a.length = n) :
    quotedFrom quote n gap (a ++ s) = addBefore [] n (quotedFrom quote 0 gap s) := by
  induction a generalizing n with
  | nil => subst h; exact (addBefore_nil_zero _).symm
  | cons c a ih =>
    subst h
    rw [List.length_cons, List.cons_append, quotedFrom, ih _ rfl, addBefore_addBefore]
    simp [Nat.add_comm]

theorem quotedFrom_space (s : List Char) :
    quotedFrom quote 0 gap (' ' :: s) = addBefore [] 1 (quotedFrom quote 0 (gap.addBlank ' ') s) := by
  cases s <;> simp [quotedFrom]

theorem quotedFrom_break (hc : isBreak c) {s : List Char} (hs : boundaryAhead s = false) :
    quotedFrom quote 0 gap (c :: s) = addBefore [] 1 (quotedFrom quote 0 (gap.addBreak c) s) := by
  have hblank : ¬ (c = ' ' ∨ c = '\t') := by rintro (rfl | rfl) <;> cases hc
  cases s <;> simp [quotedFrom, hblank, hc, hs]

/-- The character stands for itself between some quotes. -/
def isLiteral (quote c : Char) : Bool :=
  c != ' ' && c != '\t' && !isBreak c && c != quote && !(c == '\\' && quote == '"')

theorem quotedFrom_char (hc : isLiteral quote c) (s : List Char) :
    quotedFrom quote 0 gap (c :: s) = addBefore (gap.text ++ [c]) 1 (quotedFrom quote 0 .none s) := by
  simp only [isLiteral, Bool.and_eq_true, bne_iff_ne, ne_eq, Bool.not_eq_true', Bool.and_eq_false_imp, beq_iff_eq,
    beq_eq_false_iff_ne] at hc
  obtain ⟨⟨⟨⟨hspace, htab⟩, hbreak⟩, hquote⟩, hback⟩ := hc
  have hescape : ¬ (c = '\\' ∧ quote = '"') := fun h => hback h.1 h.2
  cases s <;> simp [quotedFrom, hspace, htab, hbreak, hquote, hescape]

/-- Spaces between words are part of the gap. -/
theorem quotedFrom_spaces (n : Nat) (s : List Char) :
    quotedFrom quote 0 .none (spaces (n + 1) ++ s) =
      addBefore [] (n + 1) (quotedFrom quote 0 (.blanks (spaces (n + 1))) s) := by
  suffices h : ∀ m, quotedFrom quote 0 (.blanks (spaces m)) (spaces n ++ s) =
      addBefore [] n (quotedFrom quote 0 (.blanks (spaces (m + n))) s) by
    rw [spaces_succ, List.cons_append, quotedFrom_space, QuotedGap.addBlank, show [' '] = spaces 1 from rfl, h,
      addBefore_addBefore, Nat.add_comm 1 n]
    rfl
  induction n with
  | zero => simp [spaces, addBefore_nil_zero]
  | succ n ih =>
    intro m
    rw [spaces_succ, List.cons_append, quotedFrom_space, QuotedGap.addBlank, spaces_append_space, List.append_nil,
      ih, addBefore_addBefore]
    simp [Nat.add_comm, Nat.add_left_comm]

/-- Spaces behind the end of a line do not count. -/
theorem quotedFrom_indentation (hgap : gap.addBlank ' ' = gap) (n : Nat) (s : List Char) :
    quotedFrom quote 0 gap (spaces n ++ s) = addBefore [] n (quotedFrom quote 0 gap s) := by
  induction n with
  | zero => simp [spaces, addBefore_nil_zero]
  | succ n ih =>
    rw [spaces_succ, List.cons_append, quotedFrom_space, hgap, ih, addBefore_addBefore]
    simp [Nat.add_comm]

end Reading

/-! ## Single quotes -/

/-- What was read of a gap that the printer is in the middle of, and the text that it stands for: spaces are not yet
written, ends of lines are. -/
inductive Gap.Read : Gap → QuotedGap → List Char → Prop where
  | none : Read .none .none []
  | spaces (count : Nat) (atStart : Bool) :
    Read (.spaces (count + 1) atStart) .none (LayerLint.Yaml.spaces (count + 1))
  | breaks (first : Char) (more : List Char) (hfirst : first ≠ '\n') (hbreaks : ∀ c ∈ first :: more, isBreak c) :
    Read .breaks (.lines first more) (first :: more)

section Single

variable {f : Folding} {gap : Gap} {found : QuotedGap} {pending : List Char}

theorem quotedFrom_unwritten (n : Nat) (s : List Char) : ∃ after : QuotedGap, after.text = spaces n ∧
    quotedFrom '\'' 0 .none (spaces n ++ s) = addBefore [] n (quotedFrom '\'' 0 after s) := by
  cases n with
  | zero => exact ⟨.none, rfl, (addBefore_nil_zero _).symm⟩
  | succ n => exact ⟨.blanks (spaces (n + 1)), rfl, quotedFrom_spaces n s⟩

/-- The gap before a word, as it is written, is read as the text that it stands for. -/
theorem quotedFrom_close (h : gap.Read found pending) (hpos : f.indent ≠ 0) (column : Nat) (s : List Char) :
    ∃ after : QuotedGap, after.text = pending ∧
      quotedFrom '\'' 0 found ((gap.close f column).1 ++ s) =
        addBefore [] (gap.close f column).1.length (quotedFrom '\'' 0 after s) := by
  cases h with
  | none => exact ⟨.none, rfl, (addBefore_nil_zero _).symm⟩
  | spaces count atStart =>
    simp only [Gap.close]
    split
    · -- The line is broken at the space: the break and the indentation read as one space.
      rename_i h
      obtain rfl : count = 0 := by simp at h; exact h.1.1.1
      refine ⟨.lines '\n' [], rfl, ?_⟩
      rw [Folding.newline, List.cons_append, quotedFrom_break (by decide) (boundaryAhead_spaces hpos s),
        show QuotedGap.none.addBreak '\n' = .lines '\n' [] from rfl, quotedFrom_indentation rfl, addBefore_addBefore]
      simp [Nat.add_comm]
    · simpa using quotedFrom_unwritten (count + 1) s
  | breaks first more hfirst hbreaks =>
    exact ⟨.lines first more, by simp [QuotedGap.text, hfirst], by
      simpa [Gap.close] using quotedFrom_indentation rfl f.indent s⟩

/-- The gap at the end, as it is written, is read as the text that it stands for. -/
theorem quotedFrom_finish (h : gap.Read found pending) {rest : List Char} (hrest : rest.head? ≠ some '\'') :
    quotedFrom '\'' 0 found (gap.finish f ++ '\'' :: rest) = .ok (pending, (gap.finish f).length + 1) := by
  have hclose : ∀ after : QuotedGap, quotedFrom '\'' 0 after ('\'' :: rest) = .ok (after.text, 1) := fun after => by
    cases rest with
    | nil => simp [quotedFrom, isBreak]
    | cons d rest => simp [quotedFrom, isBreak, show d ≠ '\'' by simpa using hrest]
  cases h with
  | none => simpa [Gap.finish, QuotedGap.text] using hclose .none
  | spaces count atStart =>
    obtain ⟨after, htext, hread⟩ := quotedFrom_unwritten (count + 1) ('\'' :: rest)
    rw [Gap.finish, hread, hclose, addBefore_ok, htext]
    simp [Nat.add_comm]
  | breaks first more hfirst hbreaks =>
    rw [Gap.finish, quotedFrom_indentation rfl, hclose, addBefore_ok]
    simp [QuotedGap.text, hfirst, Nat.add_comm]

/-- A word of the text, as it is written, is read as it was. -/
theorem quotedFrom_word {c : Char} (hc : isOrdinary c) (hspace : c ≠ ' ') (hbreak : isBreak c = false)
    (after : QuotedGap) (s : List Char) :
    quotedFrom '\'' 0 after ((if c = '\'' then ['\'', '\''] else [c]) ++ s) =
      addBefore (after.text ++ [c]) (if c = '\'' then ['\'', '\''] else [c]).length (quotedFrom '\'' 0 .none s) := by
  by_cases hquote : c = '\''
  · subst hquote
    simp only [if_true]
    have hskip := quotedFrom_skip '\'' 1 .none ['\''] s rfl
    simp only [List.cons_append, List.nil_append] at hskip ⊢
    rw [quotedFrom]
    simp [isBreak, hskip, addBefore_addBefore]
  · have htab : c ≠ '\t' := by rintro rfl; exact absurd hc (by decide)
    rw [if_neg hquote]
    exact quotedFrom_char (by simp [isLiteral, hspace, htab, hbreak, hquote]) s

theorem hasNeighbours_getLast {p q : Char → Bool} {a s : List Char} {d : Char} (ha : a ≠ [])
    (h : hasNeighbours p q (a ++ d :: s) = false) (hp : p (a.getLast ha)) : q d = false := by
  rw [← List.dropLast_concat_getLast ha, List.append_assoc] at h
  have := hasNeighbours_of_append h
  simp only [List.cons_append, List.nil_append, hasNeighbours_cons, List.head?_cons, Option.any_some, hp,
    Bool.true_and, Bool.or_eq_false_iff] at this
  exact this.1

/-- Behind an end of line another follows, or the indentation of the next line. -/
theorem boundaryAhead_foldedFrom_breaks (hpos : f.indent ≠ 0) (quote : List Char) (column : Nat) (first : Bool)
    (s rest : List Char) : boundaryAhead (foldedFrom f quote column .breaks first s ++ rest) = false := by
  have hspaces := fun t => boundaryAhead_spaces hpos t
  cases s with
  | nil => exact hspaces rest
  | cons c r =>
    simp only [foldedFrom]
    split
    · simpa [Gap.close] using hspaces _
    · split
      · rename_i hb
        have : c ≠ '-' ∧ c ≠ '.' := ⟨(by rintro rfl; cases hb), (by rintro rfl; cases hb)⟩
        simp [boundaryAhead, this]
      · simpa [Gap.close] using hspaces _

/-- The rest of a text of spaces, words and unusual ends of lines, as it is written, is read as it was. -/
theorem quotedFrom_foldedFrom (hpos : f.indent ≠ 0) (s rest : List Char) (hrest : rest.head? ≠ some '\'')
    (column : Nat) (first : Bool) (h : gap.Read found pending)
    (hchars : ∀ c ∈ s, isOrdinary c ∧ c ≠ '\n' ∧ c ≠ '\u0085')
    (hbefore : hasNeighbours (· == ' ') isBreak (pending ++ s) = false)
    (hafter : hasNeighbours isBreak (· == ' ') (pending ++ s) = false) :
    quotedFrom '\'' 0 found (foldedFrom f ['\'', '\''] column gap first s ++ '\'' :: rest) =
      .ok (pending ++ s, (foldedFrom f ['\'', '\''] column gap first s).length + 1) := by
  induction s generalizing column gap first found pending with
  | nil => simpa [foldedFrom] using quotedFrom_finish h hrest
  | cons c r ih =>
    obtain ⟨hordinary, hfeed, hnext⟩ := hchars c (.head _)
    have hr := fun d hd => hchars d (.tail _ hd)
    by_cases hspace : c = ' '
    · -- A space more in the gap, which is written before the next word.
      subst hspace
      cases h with
      | none =>
        simpa [foldedFrom, Gap.close, spaces] using
          ih column false (.spaces 0 first) hr (by simpa [spaces] using hbefore) (by simpa [spaces] using hafter)
      | spaces count atStart =>
        rw [spaces_append_space] at hbefore hafter ⊢
        simpa [foldedFrom] using ih column false (.spaces (count + 1) atStart) hr hbefore hafter
      | breaks first more hfirst hbreaks =>
        exact absurd (hasNeighbours_getLast (by simp) hafter (hbreaks _ (List.getLast_mem _))) (by decide)
    · by_cases hbreak : isBreak c = true
      · have hkept : breakText c = c := if_neg hnext
        have hahead := fun column =>
          boundaryAhead_foldedFrom_breaks hpos ['\'', '\''] column false r ('\'' :: rest)
        cases h with
        | none =>
          have hread := ih column false (.breaks c [] hfeed (by simpa using hbreak)) hr hbefore hafter
          rw [foldedFrom_break hbreak hfeed (.inl rfl), List.cons_append, quotedFrom_break hbreak (hahead column),
            show QuotedGap.none.addBreak c = .lines (breakText c) [] from rfl, hkept, hread, addBefore_ok]
          rfl
        | spaces count atStart =>
          exact absurd (hasNeighbours_getLast (by simp [spaces]) hbefore (by simp [spaces])) (by simp [hbreak])
        | breaks first more hfirst hbreaks =>
          have hall : ∀ d ∈ first :: (more ++ [c]), isBreak d := by
            rw [← List.cons_append]
            exact fun d hd => (List.mem_append.mp hd).elim (hbreaks d) fun h => List.mem_singleton.mp h ▸ hbreak
          have hread := ih column false (.breaks first (more ++ [c]) hfirst hall) hr
            (by simpa using hbefore) (by simpa using hafter)
          rw [foldedFrom_break hbreak hfeed (.inr rfl), List.cons_append, quotedFrom_break hbreak (hahead column),
            show QuotedGap.addBreak (.lines first more) c = .lines first (more ++ [breakText c]) from rfl, hkept, hread,
            addBefore_ok]
          simp
      · rw [Bool.not_eq_true] at hbreak
        rw [foldedFrom_char hspace hbreak, List.append_assoc, List.append_assoc]
        obtain ⟨after, htext, hclose⟩ := quotedFrom_close h hpos column
          ((if c = '\'' then ['\'', '\''] else [c]) ++
            (foldedFrom f ['\'', '\''] ((gap.close f column).2 + (if c = '\'' then ['\'', '\''] else [c]).length) .none
              false r ++ '\'' :: rest))
        have hsuffix : ∀ {p q}, hasNeighbours p q (pending ++ c :: r) = false → hasNeighbours p q r = false :=
          fun h => hasNeighbours_of_append (a := pending ++ [c]) (by simpa using h)
        rw [hclose, quotedFrom_word hordinary hspace hbreak, ih _ false .none hr (hsuffix hbefore) (hsuffix hafter),
          addBefore_ok, addBefore_ok, htext]
        simp [Nat.add_comm, Nat.add_left_comm]

/-- **Text in single quotes reads back**, from behind the opening quote on, if it has neither line feeds nor the
next-line character, which reads as one. -/
theorem quotedFrom_singleQuoted {f : Folding} {s rest : List Char} (hsingle : allowsSingle s)
    (hfeed : '\n' ∉ s) (hnext : '\u0085' ∉ s) (hpos : f.indent ≠ 0) (hrest : rest.head? ≠ some '\'') (column : Nat) :
    ∃ shown, singleQuoted f column s = '\'' :: shown ∧ quotedFrom '\'' 0 .none (shown ++ rest) =
      .ok (s, shown.length) := by
  simp only [allowsSingle, needsEscapes, Bool.and_eq_true, Bool.not_eq_eq_eq_not, Bool.not_true,
    Bool.or_eq_false_iff] at hsingle
  obtain ⟨⟨hbefore, hordinary⟩, hafter⟩ := hsingle
  refine ⟨foldedFrom f ['\'', '\''] (column + 1) .none true s ++ ['\''], rfl, ?_⟩
  have hchars : ∀ c ∈ s, isOrdinary c ∧ c ≠ '\n' ∧ c ≠ '\u0085' := fun c hc =>
    ⟨by simpa using List.any_eq_false.mp hordinary c hc, by rintro rfl; exact hfeed hc, by rintro rfl; exact hnext hc⟩
  have hread := quotedFrom_foldedFrom hpos s rest hrest (column + 1) true .none hchars hbefore hafter
  rw [List.append_assoc]
  simpa using hread

end Single

/-! ## Escapes -/

/-- The value of a hexadecimal digit. -/
def hexDigit (c : Char) : Nat := if c.isDigit then c.toNat - '0'.toNat else c.toLower.toNat - 'a'.toNat + 10

theorem hexValue_concat (s : List Char) (c : Char) : hexValue (s ++ [c]) = 16 * hexValue s + hexDigit c := by
  simp [hexValue, hexDigit]

theorem hexValue_zeros {c : Char} (hc : hexDigit c = 0) (n : Nat) (s : List Char) :
    hexValue (List.replicate n c ++ s) = hexValue s := by
  induction n with
  | zero => rfl
  | succ n ih =>
    rw [List.replicate_succ, List.cons_append, ← ih]
    change List.foldl _ (16 * 0 + hexDigit c) _ = _
    rw [hc]
    rfl

/-- The digits are spelled with hexadecimal digits of their value, capital or small. -/
def SpellsHex (spell : Char → Char) : Prop :=
  ∀ n < 16, Text.isHex (spell n.digitChar) ∧ hexDigit (spell n.digitChar) = n

theorem spellsHex_toUpper : SpellsHex Char.toUpper := by
  unfold SpellsHex
  decide

theorem spellsHex_id : SpellsHex id := by
  unfold SpellsHex
  decide

/-- The digits of a number are hexadecimal and stand for it. -/
theorem hexValue_toDigits {spell : Char → Char} (hspell : SpellsHex spell) (n : Nat) :
    ((Nat.toDigits 16 n).map spell).all Text.isHex ∧ hexValue ((Nat.toDigits 16 n).map spell) = n := by
  induction n using Nat.strongRecOn with
  | ind n ih =>
    by_cases h : n < 16
    · rw [Nat.toDigits_of_lt_base h, List.map_singleton, ← List.nil_append [_], hexValue_concat]
      simpa [hexValue] using hspell n h
    · obtain ⟨hhex, hvalue⟩ := ih (n / 16) (by omega)
      obtain ⟨hlast, hdigit⟩ := hspell (n % 16) (by omega)
      rw [Nat.toDigits_of_base_le (by decide) (by omega), List.map_append, List.map_singleton, hexValue_concat]
      exact ⟨by simp_all, by omega⟩

theorem hexDigits_spec {spell : Char → Char} (hspell : SpellsHex spell) {width n : Nat} (hwidth : 0 < width)
    (h : n < 16 ^ width) : ((Text.hexDigits width n).map spell).length = width ∧
      ((Text.hexDigits width n).map spell).all Text.isHex ∧ hexValue ((Text.hexDigits width n).map spell) = n := by
  obtain ⟨hhex, hvalue⟩ := hexValue_toDigits hspell n
  have hlength := (Nat.length_toDigits_le_iff (b := 16) (by decide) hwidth).mpr h
  obtain ⟨hzero, hdigit⟩ := hspell 0 (by decide)
  refine ⟨by simp [Text.hexDigits]; omega, ?_, ?_⟩
  · simp only [Text.hexDigits, List.map_append, List.map_replicate, List.all_append, hhex, Bool.and_true]
    exact List.all_eq_true.mpr fun c hc => List.eq_of_mem_replicate hc ▸ hzero
  · simp only [Text.hexDigits, List.map_append, List.map_replicate]
    exact (hexValue_zeros hdigit _ _).trans hvalue

theorem capitalHex_spec {width n : Nat} (hwidth : 0 < width) (h : n < 16 ^ width) :
    (capitalHex width n).length = width ∧ (capitalHex width n).all Text.isHex ∧ hexValue (capitalHex width n) = n :=
  hexDigits_spec spellsHex_toUpper hwidth h

theorem charOfCode_toNat (c : Char) : charOfCode c.toNat = .ok c := by
  have hvalid : c.toNat.isValidChar := c.valid
  have hle : ¬ 0x10FFFF < c.toNat := by
    rcases hvalid with h | h <;> omega
  rw [charOfCode, if_neg (by omega), if_neg hle, if_pos hvalid]
  simp

/-- The code of a character behind a letter reads as the character. -/
theorem escapeAt_code {letter : Char} {width : Nat} (hletter : letterEscapes.lookup letter = none)
    (hwidth : codeLengths.lookup letter = some width) (hpos : 0 < width) {c : Char} (h : c.toNat < 16 ^ width)
    (s : List Char) : escapeAt letter (capitalHex width c.toNat ++ s) = .ok (c, width + 1) := by
  obtain ⟨hlength, hhex, hvalue⟩ := capitalHex_spec hpos h
  have htake : (capitalHex width c.toNat ++ s).take width = capitalHex width c.toNat := by
    rw [List.take_append_of_le_length (by omega), List.take_of_length_le (by omega)]
  simp only [escapeAt, hletter, hwidth, htake, hlength, hhex, hvalue, charOfCode_toNat, and_self, if_true]
  rfl

theorem letterEscapes_shortEscapes :
    ∀ e ∈ shortEscapes, letterEscapes.lookup e.2 = some e.1 ∧ isBreak e.2 = false := by decide

/-- The escape of a character reads as the character. -/
theorem quotedFrom_escaped (c : Char) (gap : QuotedGap) (s : List Char) :
    quotedFrom '"' 0 gap (escaped c ++ s) =
      addBefore (gap.text ++ [c]) (escaped c).length (quotedFrom '"' 0 .none s) := by
  suffices h : ∃ e code, escaped c = '\\' :: e :: code ∧ isBreak e = false ∧
      ∀ s, escapeAt e (code ++ s) = .ok (c, code.length + 1) by
    obtain ⟨e, code, heq, hbreak, hescape⟩ := h
    have hskip := quotedFrom_skip '"' (code.length + 1) .none (e :: code) s rfl
    have hback : isBreak '\\' = false := by decide
    rw [List.cons_append] at hskip
    rw [heq, List.cons_append, List.cons_append, quotedFrom.eq_def]
    simp [hback, hbreak, hescape, hskip, addBefore_addBefore, Nat.add_comm]
  rw [escaped]
  split
  · rename_i letter hlookup
    obtain ⟨l₁, l₂, hmem, -⟩ := List.lookup_eq_some_iff.mp hlookup
    obtain ⟨h, hbreak⟩ := letterEscapes_shortEscapes (c, letter) (by rw [hmem]; simp)
    exact ⟨letter, [], rfl, hbreak, fun s => by simp [escapeAt, h]⟩
  · have hcode : ∀ {letter width}, letterEscapes.lookup letter = none → codeLengths.lookup letter = some width →
        0 < width → c.toNat < 16 ^ width → ∀ s, escapeAt letter (capitalHex width c.toNat ++ s) =
          .ok (c, (capitalHex width c.toNat).length + 1) := fun hletter hwidth hpos hlt s => by
      rw [(capitalHex_spec hpos hlt).1, escapeAt_code hletter hwidth hpos hlt]
    have hvalid : c.toNat.isValidChar := c.valid
    have hmax : c.toNat < 16 ^ 8 := by rcases hvalid with h | h <;> omega
    split
    · exact ⟨'x', _, rfl, by decide, hcode (by decide) rfl (by decide) (by omega)⟩
    · split
      · exact ⟨'u', _, rfl, by decide, hcode (by decide) rfl (by decide) (by omega)⟩
      · exact ⟨'U', _, rfl, by decide, hcode (by decide) rfl (by decide) hmax⟩

/-! ## Double quotes -/

section Double

variable {f : Folding} {found : QuotedGap}

theorem isLiteral_of_isVerbatim {c : Char} (h : isVerbatim c) (hspace : c ≠ ' ') : isLiteral '"' c := by
  have hne : ∀ d, isVerbatim d = false → c ≠ d := by
    rintro d hd rfl
    simp [hd] at h
  have hbreak : isBreak c = false := Bool.eq_false_iff.mpr fun hb => by
    simp only [isBreak, List.mem_cons, List.not_mem_nil, or_false, decide_eq_true_eq] at hb
    obtain rfl | rfl | rfl | rfl := hb <;> exact absurd h (by decide)
  simp [isLiteral, hspace, hbreak, hne '\t' (by decide), hne '"' (by decide), hne '\\' (by decide)]

/-- The break of a line behind a backslash takes away the indentation of the next line. -/
theorem quotedFrom_newline (hpos : f.indent ≠ 0) (s : List Char) :
    quotedFrom '"' 0 found ('\\' :: (f.newline ++ s)) =
      addBefore found.text (f.indent + 2) (quotedFrom '"' 0 (.escaped []) s) := by
  have hskip := quotedFrom_skip '"' 1 (.escaped []) ['\n'] (spaces f.indent ++ s) rfl
  rw [List.singleton_append, quotedFrom_indentation rfl, addBefore_addBefore] at hskip
  rw [Folding.newline, List.cons_append, quotedFrom.eq_def]
  simp [show isBreak '\\' = false by decide, show isBreak '\n' = true by decide, boundaryAhead_spaces hpos s, hskip,
    addBefore_addBefore, Nat.add_comm 1, Nat.add_assoc]

/-- A space behind a backslash stands for itself. -/
theorem quotedFrom_keptSpace (s : List Char) :
    quotedFrom '"' 0 found ('\\' :: ' ' :: s) = addBefore (found.text ++ [' ']) 2 (quotedFrom '"' 0 .none s) := by
  have hskip := quotedFrom_skip '"' 1 .none [' '] s rfl
  rw [List.singleton_append] at hskip
  rw [quotedFrom.eq_def]
  simp [show isBreak '\\' = false by decide, isBreak_space, escapeAt,
    show letterEscapes.lookup ' ' = some ' ' by decide,
    hskip, addBefore_addBefore]

/-- The backslash that keeps a space at the beginning of a line. -/
def QuotedGap.keeper : QuotedGap → List Char → List Char
  | .escaped _, ' ' :: _ => ['\\']
  | _, _ => []

theorem keeper_escaped (more s : List Char) :
    (QuotedGap.escaped more).keeper s = if s.head? = some ' ' then ['\\'] else [] := by
  cases s with
  | nil => rfl
  | cons c r =>
    by_cases h : c = ' '
    · subst h; rfl
    · simp [QuotedGap.keeper, h]

/-- Between two characters in double quotes there is nothing, blanks, or a break that does not count. -/
def QuotedGap.isQuiet : QuotedGap → Bool
  | .none | .blanks _ => true
  | .lines .. => false
  | .escaped more => more.isEmpty

/-- A space behind a quiet gap goes on with the gap or, where a backslash keeps it, ends it. -/
theorem quotedFrom_quietSpace (hfound : found.isQuiet) (r s : List Char) :
    ∃ (text : List Char) (after : QuotedGap), after.isQuiet ∧ (∀ s, after.keeper s = []) ∧
      text ++ after.text = found.text ++ [' '] ∧
      quotedFrom '"' 0 found (found.keeper (' ' :: r) ++ ' ' :: s) =
        addBefore text ((found.keeper (' ' :: r)).length + 1) (quotedFrom '"' 0 after s) := by
  cases found with
  | none => exact ⟨[], .blanks [' '], rfl, fun _ => rfl, rfl, quotedFrom_space s⟩
  | blanks text => exact ⟨[], .blanks (text ++ [' ']), rfl, fun _ => rfl, rfl, quotedFrom_space s⟩
  | lines first more => cases hfound
  | escaped more =>
    obtain rfl : more = [] := List.isEmpty_iff.mp hfound
    exact ⟨[' '], .none, rfl, fun _ => rfl, rfl, quotedFrom_keptSpace s⟩

/-- The break of a line before a character that stands for itself. -/
theorem quotedFrom_quotedBreak_verbatim (hpos : f.indent ≠ 0) {c : Char} (hc : isVerbatim c) (s : List Char) :
    quotedFrom '"' 0 found (quotedBreak f (some c) ++ c :: s) =
      addBefore (found.text ++ [c]) ((quotedBreak f (some c)).length + 1) (quotedFrom '"' 0 .none s) := by
  by_cases hspace : c = ' '
  · subst hspace
    simp only [quotedBreak, if_true, List.cons_append, List.nil_append, List.append_assoc]
    rw [quotedFrom_newline hpos, quotedFrom_keptSpace, addBefore_addBefore]
    simp [QuotedGap.text, Folding.newline, Nat.add_assoc]
  · simp only [quotedBreak, Option.some.injEq, hspace, if_false, List.cons_append, List.append_nil]
    rw [quotedFrom_newline hpos, quotedFrom_char (isLiteral_of_isVerbatim hc hspace), addBefore_addBefore]
    simp [QuotedGap.text, Folding.newline]

/-- The break of a line behind an escape. -/
theorem quotedFrom_quotedBreak (hpos : f.indent ≠ 0) (r s : List Char) :
    quotedFrom '"' 0 .none (quotedBreak f r.head? ++ s) =
      addBefore [] (f.indent + 2) (quotedFrom '"' 0 (.escaped []) ((QuotedGap.escaped []).keeper r ++ s)) := by
  rw [quotedBreak, keeper_escaped, List.cons_append, List.cons_append, List.append_assoc, quotedFrom_newline hpos]
  rfl

/-- The rest of a text in double quotes is read as it was. Behind the break of a line a first space does not lead to
another break. -/
theorem quotedFrom_doubleFrom (found : QuotedGap) (hpos : f.indent ≠ 0) (s rest : List Char) (column : Nat)
    (fresh first : Bool)
    (hfound : found.isQuiet) (hcolumn : found.keeper s ≠ [] → column ≤ lineWidth)
    (hkept : f.folds → f.indent < lineWidth ∨ hasNeighbours (!isVerbatim ·) (· == ' ') s = false) :
    quotedFrom '"' 0 found (found.keeper s ++ doubleFrom f column fresh first s ++ '"' :: rest) =
      .ok (found.text ++ s, (found.keeper s ++ doubleFrom f column fresh first s).length + 1) := by
  induction s generalizing column fresh first found with
  | nil =>
    have hnil : found.keeper [] = [] := by cases found <;> rfl
    rw [hnil, doubleFrom, quotedFrom.eq_def]
    simp [show isBreak '"' = false by decide]
  | cons c r ih =>
    have hr : f.folds → f.indent < lineWidth ∨ hasNeighbours (!isVerbatim ·) (· == ' ') r = false := fun h =>
      (hkept h).imp_right fun h => by rw [hasNeighbours_cons, Bool.or_eq_false_iff] at h; exact h.2
    have hnext : ∀ (after : QuotedGap) column fresh, after.isQuiet → after.keeper r = [] →
        quotedFrom '"' 0 after (doubleFrom f column fresh false r ++ '"' :: rest) =
          .ok (after.text ++ r, (doubleFrom f column fresh false r).length + 1) := by
      intro after column fresh hquiet hkeeper
      have hread := ih after column fresh false hquiet (fun h => absurd hkeeper h) hr
      rwa [hkeeper] at hread
    rw [doubleFrom]
    dsimp only
    split
    · rename_i hverbatim
      split
      · -- The line breaks before the character, which no backslash keeps: behind a break the column is small.
        rename_i hbreak
        simp only [Bool.and_eq_true, decide_eq_true_eq] at hbreak
        have hkeeper : found.keeper (c :: r) = [] := Classical.not_not.mp fun h => by have := hcolumn h; omega
        rw [hkeeper, List.nil_append, List.append_assoc, List.cons_append,
          quotedFrom_quotedBreak_verbatim hpos hverbatim, hnext .none _ _ rfl rfl, addBefore_ok]
        simp [QuotedGap.text]
        omega
      · by_cases hspace : c = ' '
        · subst hspace
          obtain ⟨text, after, hquiet, hkeeper, htext, hread⟩ := quotedFrom_quietSpace hfound r
            (doubleFrom f (column + 1) false false r ++ '"' :: rest)
          rw [List.append_assoc, List.cons_append, hread, hnext after _ _ hquiet (hkeeper r), addBefore_ok,
            ← List.append_assoc, htext]
          simp
          omega
        · have hkeeper : found.keeper (c :: r) = [] := by cases found <;> simp [QuotedGap.keeper, hspace]
          rw [hkeeper, List.nil_append, List.cons_append, quotedFrom_char (isLiteral_of_isVerbatim hverbatim hspace),
            hnext .none _ _ rfl rfl, addBefore_ok]
          simp [QuotedGap.text]
    · rename_i hescape
      have hspace : c ≠ ' ' := by rintro rfl; exact hescape (by decide)
      have hkeeper : found.keeper (c :: r) = [] := by cases found <;> simp [QuotedGap.keeper, hspace]
      rw [hkeeper, List.nil_append]
      split
      · rename_i hbreak
        simp only [Bool.and_eq_true, decide_eq_true_eq] at hbreak
        have hshort : (QuotedGap.escaped []).keeper r ≠ [] → columnAfterBreak f r.head? ≤ lineWidth := fun h => by
          have hhead : r.head? = some ' ' := by
            rw [keeper_escaped] at h
            exact Classical.not_not.mp fun hne => h (if_neg hne)
          rcases hkept hbreak.1.1.1 with hlt | hnone
          · simp only [columnAfterBreak, hhead, if_true]
            omega
          · simp [hasNeighbours_cons, hescape, hhead] at hnone
        have hread := ih (.escaped []) (columnAfterBreak f r.head?) true false rfl hshort hr
        rw [List.append_assoc] at hread
        rw [List.append_assoc, List.append_assoc, quotedFrom_escaped, quotedFrom_quotedBreak hpos, hread, addBefore_ok,
          addBefore_ok, quotedBreak, ← keeper_escaped []]
        simp [QuotedGap.text, Folding.newline]
        omega
      · rw [List.append_assoc, quotedFrom_escaped, hnext .none _ _ rfl rfl, addBefore_ok]
        simp [QuotedGap.text]
        omega

/-- **Text in double quotes reads back**, from behind the opening quote on. Where lines may break behind the width,
either the indentation is smaller or no escape stands before a space. -/
theorem quotedFrom_doubleQuoted {s : List Char} (hpos : f.indent ≠ 0)
    (hkept : f.folds → f.indent < lineWidth ∨ hasNeighbours (!isVerbatim ·) (· == ' ') s = false) (column : Nat)
    (rest : List Char) :
    ∃ shown, doubleQuoted f column s = '"' :: shown ∧ quotedFrom '"' 0 .none (shown ++ rest) =
      .ok (s, shown.length) := by
  refine ⟨doubleFrom f (column + 1) false true s ++ ['"'], rfl, ?_⟩
  have hread := quotedFrom_doubleFrom .none hpos s rest (column + 1) false true rfl (fun h => absurd rfl h)
    hkept
  rw [List.append_assoc]
  simpa [QuotedGap.keeper, QuotedGap.text] using hread

/-- The character is made by the printer in double quotes, on one line. -/
def isShown (c : Char) : Bool := isVerbatim c || c == '"' || c == '\\'

theorem isShown_of_isHex {c : Char} (h : Text.isHex c) : isShown c := by
  have hlt : c.toNat < 103 := by
    simp only [Text.isHex, Char.isDigit, Bool.or_eq_true, Bool.and_eq_true, decide_eq_true_eq, Char.le_def,
      UInt32.le_iff_toNat_le] at h
    have hval : c.val.toNat = c.toNat := rfl
    simp at h
    omega
  have hall : ∀ n < 103, Text.isHex (Char.ofNat n) → isShown (Char.ofNat n) := by decide
  simpa using hall c.toNat hlt (by simpa using h)

theorem isShown_of_mem_escaped {c d : Char} (h : d ∈ escaped c) : isShown d := by
  have hcode : ∀ {width}, 0 < width → c.toNat < 16 ^ width → d ∈ capitalHex width c.toNat → isShown d :=
    fun hpos hlt hd => isShown_of_isHex (List.all_eq_true.mp (capitalHex_spec hpos hlt).2.1 d hd)
  have hback : isShown '\\' := by decide
  have hvalid : c.toNat.isValidChar := c.valid
  have hmax : c.toNat < 16 ^ 8 := by rcases hvalid with h | h <;> omega
  rw [escaped] at h
  split at h
  · rename_i letter hlookup
    obtain ⟨l₁, l₂, hmem, -⟩ := List.lookup_eq_some_iff.mp hlookup
    have hletter : ∀ e ∈ shortEscapes, isShown e.2 := by decide
    rcases List.mem_cons.mp h with rfl | h
    · exact hback
    · exact List.mem_singleton.mp h ▸ hletter (c, letter) (by rw [hmem]; simp)
  · split at h
    · simp only [List.mem_cons] at h
      rcases h with rfl | rfl | h
      · exact hback
      · decide
      · exact hcode (by decide) (by omega) h
    · split at h
      · simp only [List.mem_cons] at h
        rcases h with rfl | rfl | h
        · exact hback
        · decide
        · exact hcode (by decide) (by omega) h
      · simp only [List.mem_cons] at h
        rcases h with rfl | rfl | h
        · exact hback
        · decide
        · exact hcode (by decide) hmax h

/-- Text in double quotes is made of characters that are shown and, where lines may break, of line feeds. -/
theorem mem_doubleFrom {s : List Char} {column : Nat} {fresh first : Bool} {d : Char}
    (h : d ∈ doubleFrom f column fresh first s) : isShown d ∨ (d = '\n' ∧ f.folds) := by
  have hspaces : ∀ {n}, d ∈ spaces n → isShown d := fun h => List.eq_of_mem_replicate h ▸ by decide
  have hbreak : ∀ {next}, f.folds → d ∈ quotedBreak f next → isShown d ∨ (d = '\n' ∧ f.folds) := fun hfolds h => by
    simp only [quotedBreak, Folding.newline, List.cons_append, List.mem_cons, List.mem_append] at h
    rcases h with rfl | rfl | h | h
    · exact .inl (by decide)
    · exact .inr ⟨rfl, hfolds⟩
    · exact .inl (hspaces h)
    · split at h
      · exact .inl (List.mem_singleton.mp h ▸ by decide)
      · cases h
  induction s generalizing column fresh first with
  | nil => cases h
  | cons c r ih =>
    rw [doubleFrom] at h
    dsimp only at h
    split at h
    · rename_i hverbatim
      have hc : isShown c := by simp [isShown, hverbatim]
      split at h
      · rename_i hmay
        simp only [Bool.and_eq_true] at hmay
        rcases List.mem_append.mp h with h | h
        · exact hbreak hmay.1.1.1.1 h
        · rcases List.mem_cons.mp h with rfl | h
          · exact .inl hc
          · exact ih h
      · rcases List.mem_cons.mp h with rfl | h
        · exact .inl hc
        · exact ih h
    · split at h
      · rename_i hmay
        simp only [Bool.and_eq_true] at hmay
        rcases List.mem_append.mp h with h | h
        · rcases List.mem_append.mp h with h | h
          · exact .inl (isShown_of_mem_escaped h)
          · exact hbreak hmay.1.1.1 h
        · exact ih h
      · rcases List.mem_append.mp h with h | h
        · exact .inl (isShown_of_mem_escaped h)
        · exact ih h

end Double

end LayerLint.Yaml
