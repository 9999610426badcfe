import LayerLint.Yaml.Token.Plain
import LayerLint.Proofs.Yaml.ReadBack.Basic

/-!
# Plain scalars read back

A text that can be written plain (`allowsPlain`) has no character that would end it, so it is read as it was,
also where a long line was broken at a space: the end of the line and the indentation read as this space
(`plainFrom_plainText`).
-/

namespace LayerLint.Yaml

/-! ## The text between words -/

/-- The text of a gap that is not yet written. -/
def Gap.pending : Gap → List Char
  | .spaces count _ => LayerLint.Yaml.spaces count
  | _ => []

/-! ## Reading -/

/-- What was read of a scalar, with more characters before it. -/
def addWords (text : List Char) (count : Nat) (r : List Char × Nat × Bool) : List Char × Nat × Bool :=
  (text ++ r.1, count + r.2.1, r.2.2)

theorem addWords_addWords (a b : List Char) (m n : Nat) (r : List Char × Nat × Bool) :
    addWords a m (addWords b n r) = addWords (a ++ b) (m + n) r := by
  simp [addWords, Nat.add_assoc]

section Reading

variable {indent : Nat} {gap : PlainGap} {c : Char}

theorem addWord_eq (text : List Char) (r : List Char × Nat × Bool) : addWord text r = addWords text 1 r := by
  simp [addWord, addWords, Nat.add_comm]

theorem plainFrom_space (s : List Char) :
    plainFrom false indent gap (' ' :: s) = addWords [] 1 (plainFrom false indent gap.addSpace s) := by
  rw [← addWord_eq]
  cases gap <;> simp [plainFrom]

theorem plainFrom_break (s : List Char) (hc : isBreak c) (hs : boundaryAhead s = false) :
    plainFrom false indent gap (c :: s) = addWords [] 1 (plainFrom false indent (gap.addBreak c) s) := by
  have hne : c ≠ ' ' := by rintro rfl; cases hc
  rw [← addWord_eq]
  cases gap <;> simp [plainFrom, hc, hs, hne]

/-- A character goes on with a scalar: it is no comment sign, and it is indented enough. -/
def PlainGap.goesOn (indent : Nat) (c : Char) : PlainGap → Prop
  | .none => True
  | .spaces _ => c ≠ '#'
  | .lines _ _ column => c ≠ '#' ∧ indent ≤ column

theorem plainFrom_char (gap : PlainGap) (s : List Char) (hc : isSeparator c = false)
    (hcolon : (c == ':' && separatorAhead s) = false)
    (hgap : gap.goesOn indent c) :
    plainFrom false indent gap (c :: s) = addWords (gap.text ++ [c]) 1 (plainFrom false indent .none s) := by
  have hne : c ≠ ' ' := by rintro rfl; cases hc
  have hb : isBreak c = false := Bool.eq_false_iff.mpr fun h => by simp [isSeparator_of_isBreak h] at hc
  have hend : endsWord false c s = false := by simp [endsWord, hc, hcolon]
  rw [← addWord_eq]
  cases gap with
  | none => simp [plainFrom, hb, hne, hend]
  | spaces n => simp [plainFrom, hb, hne, hend, show c ≠ '#' from hgap]
  | lines first more column =>
    simp [plainFrom, hb, hne, hend, show c ≠ '#' from hgap.1, show ¬ column < indent by have := hgap.2; omega]

/-- Spaces on a line are part of the gap. -/
theorem plainFrom_spaces (n : Nat) (s : List Char) :
    plainFrom false indent .none (spaces (n + 1) ++ s) =
      addWords [] (n + 1) (plainFrom false indent (.spaces (n + 1)) s) := by
  suffices h : ∀ m, plainFrom false indent (.spaces m) (spaces n ++ s) =
      addWords [] n (plainFrom false indent (.spaces (m + n)) s) by
    rw [spaces_succ, List.cons_append, plainFrom_space, PlainGap.addSpace, h, addWords_addWords]
    simp [Nat.add_comm]
  induction n with
  | zero => simp [spaces, addWords]
  | succ n ih =>
    intro m
    rw [spaces_succ, List.cons_append, plainFrom_space, PlainGap.addSpace, ih, addWords_addWords]
    simp [Nat.add_comm, Nat.add_left_comm]

/-- Spaces at the beginning of a line are its indentation. -/
theorem plainFrom_indentation (n column : Nat) (first : Char) (more s : List Char) :
    plainFrom false indent (.lines first more column) (spaces n ++ s) =
      addWords [] n (plainFrom false indent (.lines first more (column + n)) s) := by
  induction n generalizing column with
  | zero => simp [spaces, addWords]
  | succ n ih =>
    rw [spaces_succ, List.cons_append, plainFrom_space, PlainGap.addSpace, ih, addWords_addWords]
    simp [Nat.add_comm, Nat.add_left_comm]

end Reading

/-! ## Printing -/

section Printing

variable {f : Folding} {quote : List Char} {column : Nat} {gap : Gap} {first : Bool} {c : Char} {r : List Char}

theorem foldedFrom_char (hspace : c ≠ ' ') (hbreak : isBreak c = false) :
    foldedFrom f quote column gap first (c :: r) =
      (gap.close f column).1 ++ ((if c = '\'' then quote else [c]) ++
        foldedFrom f quote ((gap.close f column).2 + (if c = '\'' then quote else [c]).length) .none false r) := by
  cases gap <;> simp [foldedFrom, hspace, hbreak]

/-- An end of line that is no line feed is written once. -/
theorem foldedFrom_break (hbreak : isBreak c) (hfeed : c ≠ '\n') (hgap : gap = .none ∨ gap = .breaks) :
    foldedFrom f quote column gap first (c :: r) = c :: foldedFrom f quote column .breaks false r := by
  have hspace : c ≠ ' ' := by rintro rfl; cases hbreak
  obtain rfl | rfl := hgap <;> simp [foldedFrom, hspace, hbreak, hfeed, Gap.close]

end Printing

/-! ## Printing and reading -/

/-- The gap before a word, as it is written, is read as the spaces that it stands for. -/
theorem plainFrom_close {indent column : Nat} {f : Folding} {gap : Gap} {c : Char} {s : List Char}
    (hgap : gap ≠ .breaks)
    (hindent : indent ≤ f.indent) (hpos : f.indent ≠ 0) (hc : isSeparator c = false)
    (hcolon : (c == ':' && separatorAhead s) = false) (hsign : gap.pending ≠ [] → c ≠ '#') :
    plainFrom false indent .none ((gap.close f column).1 ++ c :: s) =
      addWords (gap.pending ++ [c]) ((gap.close f column).1.length + 1) (plainFrom false indent .none s) := by
  cases gap with
  | none =>
    simp only [Gap.close, Gap.pending, List.nil_append]
    rw [plainFrom_char .none s hc hcolon trivial]
    rfl
  | breaks => exact absurd rfl hgap
  | spaces count atStart =>
    simp only [Gap.close]
    split
    · -- The line is broken at the space: the break and the indentation read as one space.
      rename_i h
      obtain rfl : count = 1 := by simp at h; exact h.1.1.1
      have hsign : c ≠ '#' := hsign (by simp [Gap.pending, spaces])
      have hgap : (PlainGap.none.addBreak '\n') = .lines '\n' [] 0 := rfl
      rw [Folding.newline, List.cons_append, plainFrom_break _ (by decide) (boundaryAhead_spaces hpos _), hgap,
        plainFrom_indentation, plainFrom_char (.lines _ _ _) s hc hcolon ⟨hsign, by omega⟩, addWords_addWords,
        addWords_addWords]
      simp [PlainGap.text, Gap.pending, spaces, Nat.add_comm]
    · cases count with
      | zero => exact plainFrom_char .none s hc hcolon trivial
      | succ n =>
        rw [plainFrom_spaces, plainFrom_char (.spaces _) s hc hcolon (hsign (by simp [Gap.pending, spaces])),
          addWords_addWords]
        simp [PlainGap.text, Gap.pending, spaces]

/-- What is written behind the first character of a text of words begins as the text does. -/
theorem foldedFrom_none_head {f : Folding} {column : Nat} {first : Bool} {d : Char} {r rest : List Char}
    (hd : isSeparator d = false) :
    separatorAhead (foldedFrom f ['\''] column .none first (d :: r) ++ rest) = false := by
  have hne : d ≠ ' ' := by rintro rfl; cases hd
  have hb : isBreak d = false := Bool.eq_false_iff.mpr fun h => by simp [isSeparator_of_isBreak h] at hd
  have hshown : (if d = '\'' then ['\''] else [d]) = [d] := by split <;> simp_all
  rw [foldedFrom_char hne hb, hshown]
  simp [Gap.close, separatorAhead, hd]

/-- The rest of a text of words with spaces between them, as it is written, is read as it was. -/
theorem plainFrom_foldedFrom {indent : Nat} {f : Folding} (hindent : indent ≤ f.indent) (hpos : f.indent ≠ 0)
    (s rest : List Char) (column : Nat) (gap : Gap) (first : Bool) (hgap : gap ≠ .breaks)
    (hseparator : ∀ c ∈ s, isSeparator c → c = ' ') (hcolon : hasLooseColon s = false)
    (hsign : hasNeighbours isSeparator (· == '#') (gap.pending ++ s) = false)
    (hend : s.getLast? ≠ some ' ') (hpending : gap.pending ≠ [] → s ≠ []) :
    plainFrom false indent .none (foldedFrom f ['\''] column gap first s ++ rest) =
      addWords (gap.pending ++ s) (foldedFrom f ['\''] column gap first s).length
        (plainFrom false indent .none rest) := by
  induction s generalizing column gap first with
  | nil =>
    have hnone : gap.pending = [] := Classical.not_not.mp fun h => hpending h rfl
    have hfinish : gap.finish f = [] := by
      cases gap with
      | none => rfl
      | spaces count atStart => exact hnone
      | breaks => exact absurd rfl hgap
    simp [foldedFrom, hnone, hfinish, addWords]
  | cons c r ih =>
    have hr : ∀ c ∈ r, isSeparator c → c = ' ' := fun d hd => hseparator d (.tail _ hd)
    rw [hasLooseColon_cons, Bool.or_eq_false_iff] at hcolon
    have hend' : r.getLast? ≠ some ' ' := fun h => hend (by rw [List.getLast?_cons, h]; rfl)
    by_cases hc : c = ' '
    · -- A space more in the gap, which is written before the next word.
      subst hc
      have hne : r ≠ [] := by rintro rfl; exact hend rfl
      obtain ⟨n, b, hwritten, hgap'⟩ : ∃ n b,
          foldedFrom f ['\''] column gap first (' ' :: r) = foldedFrom f ['\''] column (.spaces n b) false r ∧
            gap.pending ++ ' ' :: r = spaces n ++ r := by
        cases gap with
        | none => exact ⟨1, first, by simp [foldedFrom, Gap.close], rfl⟩
        | spaces count atStart =>
          exact ⟨count + 1, atStart, by simp [foldedFrom], spaces_append_space count r⟩
        | breaks => exact absurd rfl hgap
      rw [hgap'] at hsign
      rw [hwritten, hgap', ih column (.spaces n b) false (by simp) hr hcolon.2 hsign hend' fun _ => hne]
      rfl
    · have hsep : isSeparator c = false := Bool.eq_false_iff.mpr fun h => hc (hseparator c (.head _) h)
      have hb : isBreak c = false := Bool.eq_false_iff.mpr fun h => by simp [isSeparator_of_isBreak h] at hsep
      have hshown : (if c = '\'' then ['\''] else [c]) = [c] := by split <;> simp_all
      have hwritten : foldedFrom f ['\''] column gap first (c :: r) =
          (gap.close f column).1 ++ c :: foldedFrom f ['\''] ((gap.close f column).2 + 1) .none false r := by
        rw [foldedFrom_char hc hb, hshown]
        rfl
      have hahead : (c == ':' && separatorAhead
          (foldedFrom f ['\''] ((gap.close f column).2 + 1) .none false r ++ rest)) = false := by
        by_cases hc : c = ':'
        · subst hc
          cases r with
          | nil => simp [separatorAhead] at hcolon
          | cons d r => simp [foldedFrom_none_head (by simpa [separatorAhead] using hcolon.1)]
        · simp [hc]
      rw [hwritten, List.append_assoc, List.cons_append, plainFrom_close hgap hindent hpos hsep hahead,
        ih _ .none false (by simp) hr hcolon.2 (hasNeighbours_of_append (a := gap.pending ++ [c])
            (by simpa [Gap.pending] using hsign))
          hend' (by simp [Gap.pending]), addWords_addWords]
      · simp [Gap.pending, Nat.add_assoc, Nat.add_comm 1]
      · rintro hpend rfl
        cases gap with
        | none => exact hpend rfl
        | breaks => exact hgap rfl
        | spaces n b =>
          obtain ⟨m, rfl⟩ := Nat.exists_eq_succ_of_ne_zero fun h : n = 0 => hpend (by rw [h]; rfl)
          rw [Gap.pending, ← spaces_append_space] at hsign
          simpa [hasNeighbours_cons, isSeparator_space] using hasNeighbours_of_append hsign

/-- **Plain text reads back.** What follows the text is read as if nothing stood before it. -/
theorem plainFrom_plainText {f : Folding} {s : List Char} (indent column : Nat) (hplain : allowsPlain s)
    (hindent : indent ≤ f.indent) (hpos : f.indent ≠ 0) (rest : List Char) :
    plainFrom false indent .none (plainText f column s ++ rest) =
      addWords s (plainText f column s).length (plainFrom false indent .none rest) := by
  simp only [allowsPlain, hasLooseEnd, isMultiline, needsEscapes, hasIndicator, Bool.and_eq_true,
    Bool.not_eq_eq_eq_not, Bool.not_true, Bool.or_eq_false_iff] at hplain
  obtain ⟨⟨⟨⟨-, hlast⟩, hbreak⟩, -, hordinary⟩, ⟨-, hcolon⟩, hsign⟩ := hplain
  have hseparator : ∀ c ∈ s, isSeparator c → c = ' ' := fun c hc =>
    eq_space_of_isOrdinary (by simpa using List.any_eq_false.mp hordinary c hc)
      (by simpa using List.any_eq_false.mp hbreak c hc)
  have hend : s.getLast? ≠ some ' ' := fun h => by simp [h] at hlast
  exact plainFrom_foldedFrom hindent hpos s rest column .none true (by simp) hseparator hcolon hsign hend
    (by simp [Gap.pending])

/-! ## Behind plain text -/

/-- A plain scalar ends at the colon of its entry. -/
theorem plainFrom_colon {indent : Nat} {rest : List Char} (h : separatorAhead rest) :
    plainFrom false indent .none (':' :: rest) = ([], 0, false) := by
  simp [plainFrom, isBreak, endsWord, h, plainEnd, PlainGap.endsLine]

theorem plainFrom_feed {indent : Nat} {gap : PlainGap} (s : List Char) :
    plainFrom false indent gap ('\n' :: s) =
      if boundaryAhead s then ([], 1, true) else addWords [] 1 (plainFrom false indent (gap.addBreak '\n') s) := by
  by_cases h : boundaryAhead s = true
  · cases gap <;> simp [plainFrom, isBreak, h]
  · rw [if_neg h, plainFrom_break s (by decide) (by simpa using h)]

/-- Behind the end of its last line a plain scalar ends before a line that is indented less, or earlier. -/
theorem plainFrom_lineEnd {indent feeds : Nat} {rest : List Char} (h : Resumes indent feeds rest) :
    ∃ n, plainFrom false indent .none ('\n' :: rest) = ([], n + 1, true) ∧ TakesBlanks n rest := by
  obtain ⟨k, r, rfl, hk, hr⟩ := h
  -- The scalar may end behind each line feed.
  have hlines : ∀ first more, ∃ n, plainFrom false indent (.lines first more 0)
      (List.replicate feeds '\n' ++ (spaces k ++ r)) = ([], n, true) ∧
        TakesBlanks n (List.replicate feeds '\n' ++ (spaces k ++ r)) := by
    induction feeds with
    | zero =>
      intro first more
      have hend : plainFrom false indent (.lines first more k) r = ([], 0, true) := by
        cases r with
        | nil => rfl
        | cons c r =>
          obtain ⟨hspace, hbreak⟩ := hr c (by simp)
          simp [plainFrom, hspace, hbreak, hk, plainEnd, PlainGap.endsLine]
      refine ⟨k, ?_, spaces k, r, rfl, length_spaces k, fun c hc => .inl (List.eq_of_mem_replicate hc)⟩
      rw [List.replicate_zero, List.nil_append, plainFrom_indentation, Nat.zero_add, hend]
      rfl
    | succ feeds ih =>
      intro first more
      rw [List.replicate_succ, List.cons_append, plainFrom_feed]
      split
      · exact ⟨1, rfl, (TakesBlanks.zero _).feed⟩
      · obtain ⟨n, hread, hblanks⟩ := ih first (more ++ ['\n'])
        exact ⟨n + 1, by
          rw [show (PlainGap.lines first more 0).addBreak '\n' = .lines first (more ++ ['\n']) 0 from rfl, hread]
          simp [addWords, Nat.add_comm], hblanks.feed⟩
  rw [plainFrom_feed]
  split
  · exact ⟨0, rfl, TakesBlanks.zero _⟩
  · obtain ⟨n, hread, hblanks⟩ := hlines '\n' []
    exact ⟨n, by
      rw [show PlainGap.none.addBreak '\n' = .lines '\n' [] 0 from rfl, hread]
      simp [addWords, Nat.add_comm], hblanks⟩

/-! ## The characters of folded text -/

theorem mem_close {f : Folding} {column : Nat} {gap : Gap} {d : Char} (h : d ∈ (gap.close f column).1) :
    d = ' ' ∨ (d = '\n' ∧ f.folds) := by
  cases gap with
  | none => simp [Gap.close] at h
  | breaks => exact .inl (List.eq_of_mem_replicate h)
  | spaces count atStart =>
    simp only [Gap.close] at h
    split at h
    · rename_i hfold
      rcases List.mem_cons.mp h with rfl | h
      · exact .inr ⟨rfl, by simp at hfold; exact hfold.2⟩
      · exact .inl (List.eq_of_mem_replicate h)
    · exact .inl (List.eq_of_mem_replicate h)

/-- Folded text is made of the characters of the text, of quotes, spaces and, where it may, of line feeds. -/
theorem mem_foldedFrom {f : Folding} {quote s : List Char} {column : Nat} {gap : Gap} {first : Bool} {d : Char}
    (h : d ∈ foldedFrom f quote column gap first s) : d ∈ s ∨ d ∈ quote ∨ d = ' ' ∨ (d = '\n' ∧ f.folds) := by
  induction s generalizing column gap first with
  | nil =>
    cases gap with
    | none => cases h
    | spaces count atStart => exact .inr (.inr (.inl (List.eq_of_mem_replicate h)))
    | breaks => exact .inr (.inr (.inl (List.eq_of_mem_replicate h)))
  | cons c r ih =>
    have hrest : ∀ {column : Nat} {gap : Gap} {first : Bool}, d ∈ foldedFrom f quote column gap first r →
        d ∈ c :: r ∨ d ∈ quote ∨ d = ' ' ∨ (d = '\n' ∧ f.folds) := fun h => (ih h).imp_left (List.mem_cons_of_mem _)
    have hclose : ∀ {column : Nat} {gap : Gap}, d ∈ (gap.close f column).1 →
        d ∈ c :: r ∨ d ∈ quote ∨ d = ' ' ∨ (d = '\n' ∧ f.folds) := fun h => .inr (.inr (mem_close h))
    rw [foldedFrom.eq_def] at h
    simp only at h
    split at h
    · split at h
      · exact hrest h
      · exact (List.mem_append.mp h).elim hclose hrest
    · split at h
      · split at h
        · rcases List.mem_cons.mp h with rfl | h
          · exact .inl (.head _)
          · exact hrest h
        · rcases List.mem_append.mp h with h | h
          · rcases List.mem_append.mp h with h | h
            · exact hclose h
            · exact .inl (by split at h <;> simp_all)
          · exact hrest h
      · rcases List.mem_append.mp h with h | h
        · rcases List.mem_append.mp h with h | h
          · exact hclose h
          · split at h
            · exact .inr (.inl h)
            · exact .inl (List.mem_singleton.mp h ▸ .head _)
        · exact hrest h

end LayerLint.Yaml
