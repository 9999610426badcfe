import LayerLint.Yaml.Printer.Document
import LayerLint.Proofs.Yaml.ReadBack.Scan

/-!
# The tokens of scalars in a document

A scalar that is written without its tag is one token again: as the value of an entry or as an item, with the end of
its line (`scan_scalar`), and as the key of an entry on one line, with its colon (`scan_key`, `scan_firstKey`).
`LegibleText` says which texts the scanner gives back: all but those with a next-line character outside of double quotes
and, far to the right, those with an escape before a space.
-/

namespace LayerLint.Yaml

/-- The text of a scalar in a style. -/
def Style.shown (style : Style) (f : Folding) (column : Nat) (s : List Char) : List Char :=
  match style with
  | .plain => plainText f column s
  | .single => singleQuoted f column s
  | .double => doubleQuoted f column s
  | .block => blockText f.indent s

/-- A scalar whose lines are indented so far is written without its tag and reads back as the same text. -/
structure LegibleText (indent : Nat) (tag : Tag) (s : List Char) (onOneLine : Bool) : Prop where
  hidden : hidesTag tag s (Style.choose tag s onOneLine)
  nonempty : Style.choose tag s onOneLine = .plain → s ≠ []
  noNextLine : Style.choose tag s onOneLine ≠ .double → '\u0085' ∉ s
  keptSpaces : Style.choose tag s onOneLine = .double → onOneLine = false →
    indent < lineWidth ∨ hasNeighbours (!isVerbatim ·) (· == ' ') s = false

theorem scalarText_eq {place : Place} {tag : Tag} {s : List Char} {onOneLine : Bool}
    (h : hidesTag tag s (Style.choose tag s onOneLine)) :
    scalarText place none tag s onOneLine =
      place.gap ++ (Style.choose tag s onOneLine).shown ⟨place.inner 2, !onOneLine⟩ (place.column +
        place.gap.length) s := by
  simp only [scalarText, properties, h, Option.toList_none, List.map_nil, if_true, List.append_nil, words,
    List.nil_append]
  cases Style.choose tag s onOneLine <;> rfl

/-! ## What a style says about the text -/

section Style

variable {tag : Tag} {s : List Char} {onOneLine : Bool}

theorem choose_plain (h : Style.choose tag s onOneLine = .plain) : allowsPlain s := by
  simp only [Style.choose] at h
  split at h
  · split at h <;> cases h
  · split at h
    · rename_i hplain
      simp only [Bool.and_eq_true] at hplain
      exact hplain.1.2
    · split at h <;> cases h

theorem choose_single (h : Style.choose tag s onOneLine = .single) :
    allowsSingle s ∧ prefersBlock tag s = false ∧ (onOneLine → isMultiline s = false) := by
  simp only [Style.choose] at h
  split at h
  · split at h <;> cases h
  · rename_i hblock
    split at h
    · cases h
    · split at h
      · rename_i hsingle
        simp only [Bool.and_eq_true, Bool.not_eq_true', Bool.and_eq_false_imp] at hsingle
        exact ⟨hsingle.1, by simpa using hblock, hsingle.2⟩
      · cases h

theorem choose_block (h : Style.choose tag s onOneLine = .block) : allowsBlock s ∧ onOneLine = false := by
  simp only [Style.choose] at h
  split at h
  · split at h
    · rename_i hblock
      simp only [Bool.and_eq_true, Bool.not_eq_true'] at hblock
      exact hblock.symm
    · cases h
  · split at h
    · cases h
    · split at h <;> cases h

end Style

/-! ## The beginning of plain text -/

section Plain

variable {c : Char} {r rest : List Char} {f : Folding} {column : Nat}

theorem hasIndicatorAtStart_eq_false (h : hasIndicatorAtStart (c :: r) = false) :
    leadIndicators.contains c = false ∧ (c = '-' ∨ c = '?' ∨ c = ':' → separatorAhead r = false) ∧
      ∀ s, boundaryAhead (c :: r ++ ':' :: s) = false := by
  rw [hasIndicatorAtStart.eq_def] at h
  split at h
  · cases h
  · cases h
  · rename_i d t hdash hpoint heq
    obtain ⟨rfl, rfl⟩ := List.cons.inj heq
    rw [Bool.or_eq_false_iff] at h
    refine ⟨h.1, fun hc => ?_, fun s => ?_⟩
    · have hmem : ['?', ':', '-'].contains c := by obtain rfl | rfl | rfl := hc <;> decide
      rw [hmem, Bool.true_and, Bool.or_eq_false_iff] at h
      cases r with
      | nil => simp at h
      | cons d r => simpa [separatorAhead] using h.2.2
    · rw [boundaryAhead.eq_def]
      split
      · rename_i heq
        obtain _ | ⟨d, _ | ⟨e, r⟩⟩ := r <;> simp_all
      · rename_i heq
        obtain _ | ⟨d, _ | ⟨e, r⟩⟩ := r <;> simp_all
      · rfl
  · rename_i heq
    cases heq

theorem plain_lead (h : allowsPlain (c :: r)) :
    leadIndicators.contains c = false ∧ isSeparator c = false ∧
      (c = '-' ∨ c = '?' ∨ c = ':' → separatorAhead r = false) ∧
        ∀ s, boundaryAhead (c :: r ++ ':' :: s) = false := by
  simp only [allowsPlain, hasLooseEnd, isMultiline, needsEscapes, hasIndicator, Bool.and_eq_true,
    Bool.not_eq_eq_eq_not, Bool.not_true, Bool.or_eq_false_iff, List.head?_cons, Option.any_some, List.any_cons] at h
  obtain ⟨⟨⟨⟨hhead, -⟩, hbreak, -⟩, -, hordinary, -⟩, ⟨hstart, -⟩, -⟩ := h
  obtain ⟨hlead, hsign, hboundary⟩ := hasIndicatorAtStart_eq_false hstart
  refine ⟨hlead, Bool.eq_false_iff.mpr fun hsep => ?_, hsign, hboundary⟩
  have := eq_space_of_isOrdinary (by simpa using hordinary) hbreak hsep
  simp [this] at hhead

/-- Plain text begins as the text does. -/
theorem plainText_cons (column : Nat) (h : isSeparator c = false) :
    ∃ w, plainText f column (c :: r) = c :: w ∧
      (separatorAhead r = false → ∀ rest, separatorAhead (w ++ rest) = false) := by
  have hspace : c ≠ ' ' := by rintro rfl; cases h
  have hbreak : isBreak c = false := Bool.eq_false_iff.mpr fun hb => by simp [isSeparator_of_isBreak hb] at h
  have hshown : (if c = '\'' then ['\''] else [c]) = [c] := by split <;> simp_all
  refine ⟨foldedFrom f ['\''] (column + 1) .none false r, ?_, fun hr rest => ?_⟩
  · rw [plainText, foldedFrom_char hspace hbreak, hshown]
    rfl
  · cases r with
    | nil => simp [separatorAhead] at hr
    | cons d r => exact foldedFrom_none_head (by simpa [separatorAhead] using hr)

end Plain

/-! ## Scalars with the end of their line -/

section Line

open Scanner

variable {p : Position} {i feeds column : Nat} {indents : List Nat} {allows : Bool} {before : List Token}
  {s rest : List Char}

theorem beginsToken_of_lead {c : Char} (hlead : leadIndicators.contains c = false) (hseparator : isSeparator c = false)
    (hordinary : isOrdinary c) : beginsToken c := by
  have hbreak : isBreak c = false := Bool.eq_false_iff.mpr fun hb => by simp [isSeparator_of_isBreak hb] at hseparator
  have hspace : c ≠ ' ' := by rintro rfl; cases hseparator
  have hmark : c ≠ '\ufeff' := by rintro rfl; exact absurd hordinary (by decide)
  have hcomment : c ≠ '#' := by rintro rfl; exact absurd hlead (by decide)
  simp [beginsToken, hbreak, hspace, hmark, hcomment]

theorem isOrdinary_of_allowsPlain (h : allowsPlain s) : ∀ c ∈ s, isOrdinary c ∧ isBreak c = false := by
  simp only [allowsPlain, isMultiline, needsEscapes, Bool.and_eq_true, Bool.not_eq_eq_eq_not, Bool.not_true,
    Bool.or_eq_false_iff] at h
  obtain ⟨⟨⟨-, hbreak⟩, -, hordinary⟩, -⟩ := h
  exact fun c hc => ⟨by simpa using List.any_eq_false.mp hordinary c hc,
    by simpa using List.any_eq_false.mp hbreak c hc⟩

/-- A plain scalar with the end of its line. -/
theorem scan_plain (hplain : allowsPlain s) (hne : s ≠ []) (hcolumn : i < p.column)
    (hrest : Resumes (i + 1) feeds rest) :
    scanFrom p (i :: indents) allows before (plainText ⟨i + 2, true⟩ column s ++ '\n' :: rest) =
      scanFrom (p.after (plainText ⟨i + 2, true⟩ column s ++ ['\n'])) (i :: indents) true
        (.scalar true (String.ofList s) :: before) rest := by
  obtain ⟨c, r, rfl⟩ := List.exists_cons_of_ne_nil hne
  obtain ⟨hlead, hseparator, hsign, -⟩ := plain_lead hplain
  obtain ⟨w, hw, hahead⟩ := plainText_cons (f := ⟨i + 2, true⟩) (r := r) column hseparator
  obtain ⟨n, hend, blanks, r', rfl, hlength, hblanks⟩ := plainFrom_lineEnd hrest
  have hread := plainFrom_plainText (f := ⟨i + 2, true⟩) (i + 1) column hplain (by simp) (by simp)
    ('\n' :: (blanks ++ r'))
  rw [hend, hw] at hread
  -- The scanner takes the end of the line and the blanks behind it together with the scalar.
  have hstep : step ⟨p, i :: indents, none, [], allows, before⟩ c (w ++ '\n' :: blanks ++ r') =
      .ok (⟨p, i :: indents, keyHere p (i :: indents) allows before, [], true,
        .scalar true (String.ofList (c :: r)) :: before⟩, (w ++ '\n' :: blanks).length + 1) := by
    rw [List.append_assoc, List.cons_append]
    refine step_plain hlead hseparator (fun hc => hahead (hsign hc) _) (fun h => by omega) rfl (hread.trans ?_)
    simp [addWords, hlength]
    omega
  have hfits : Fits (i :: indents) p.column := by simp [Fits]; omega
  have hbegins := beginsToken_of_lead hlead hseparator (isOrdinary_of_allowsPlain hplain c (.head _)).1
  have htext : c :: w ++ '\n' :: (blanks ++ r') = c :: (w ++ '\n' :: blanks) ++ r' := by simp
  have hafter : p.after (c :: (w ++ '\n' :: blanks)) = (p.after (c :: w ++ ['\n'])).after blanks := by
    rw [← Position.after_append]
    simp
  rw [hw, htext, scan_word hfits hbegins hstep, hafter,
    ← tokensFrom_keyHere hcolumn (Position.line_after_feed p (c :: w)) (blanks ++ r'), tokensFrom_blanks hblanks]

/-- A scalar in quotes with the end of its line. -/
theorem scan_quoted {quote : Char} {shown : List Char} (hquote : quote = '\'' ∨ quote = '"')
    (hread : ∀ rest, rest.head? ≠ some '\'' → quotedFrom quote 0 .none (shown ++ rest) = .ok (s, shown.length))
    (hcolumn : i < p.column) (rest : List Char) :
    scanFrom p (i :: indents) allows before (quote :: shown ++ '\n' :: rest) =
      scanFrom (p.after (quote :: shown ++ ['\n'])) (i :: indents) true (.scalar false (String.ofList s) :: before)
        rest := by
  have hfits : Fits (i :: indents) p.column := by simp [Fits]; omega
  have hbegins : beginsToken quote := by obtain rfl | rfl := hquote <;> decide
  rw [scan_word hfits hbegins (step_quoted hquote (hread ('\n' :: rest) (by simp))), tokensFrom_feed,
    ← tokensFrom_keyHere hcolumn (Position.line_after_feed p (quote :: shown)) rest, Position.after_append]
  rfl

/-- A block with the end of its last line. -/
theorem scan_block (hne : s ≠ []) (hnext : '\u0085' ∉ s) (hcolumn : i < p.column) (hrest : Resumes (i + 1) feeds rest)
    (hfeeds : feeds = 0 ∨ chompingOf s ≠ .keep) :
    scanFrom p (i :: indents) allows before (blockText (i + 2) s ++ rest) =
      scanFrom (p.after (blockText (i + 2) s)) (i :: indents) true
        (.scalar false (String.ofList s) :: before) rest := by
  obtain ⟨n, ⟨blanks, r, rfl, hlength, hblanks⟩, hend⟩ := blockFrom_rest (hrest.mono (Nat.le_succ (i + 1))) hfeeds
  obtain ⟨shown, hshown, hread⟩ := blockScalar_blockText (i + 1) hne hnext hend
  -- The scanner takes the indentation of the next line together with the block.
  have hstep : step ⟨p, i :: indents, none, [], allows, before⟩ '|' (shown ++ blanks ++ r) =
      .ok (⟨p, i :: indents, none, [], true, .scalar false (String.ofList s) :: before⟩,
        (shown ++ blanks).length + 1) := by
    rw [List.append_assoc, List.length_append, hlength]
    exact step_block hread
  have hfits : Fits (i :: indents) p.column := by simp [Fits]; omega
  have hafter : p.after ('|' :: (shown ++ blanks)) = (p.after ('|' :: shown)).after blanks := by
    rw [← Position.after_append]
    rfl
  rw [hshown, show '|' :: shown ++ (blanks ++ r) = '|' :: (shown ++ blanks) ++ r by simp,
    scan_word hfits (by decide) hstep, hafter, scanFrom, tokensFrom_blanks hblanks]

/-- A block ends its last line. -/
theorem column_after_blockLines (p : Position) {indent : Nat} {atStart : Bool} (h : atStart = false ∨ s ≠ []) :
    (p.after (blockLines indent atStart s)).column = 0 := by
  induction s generalizing p atStart with
  | nil =>
    obtain rfl : atStart = false := h.resolve_right (by simp)
    rfl
  | cons c r ih =>
    rw [blockLines]
    split
    · rename_i hc
      rw [Position.after_cons]
      cases r with
      | nil => simp [blockLines, Position.after_nil, Position.next_of_isBreak hc]
      | cons d r => exact ih _ (.inr (by simp))
    · rw [Position.after_append]
      exact ih _ (.inl rfl)

theorem column_after_blockText (p : Position) (indent : Nat) (hne : s ≠ []) :
    (p.after (blockText indent s)).column = 0 := by
  rw [blockText, Position.after_append, Position.after_cons]
  exact column_after_blockLines _ (.inr hne)

/-- The text of a scalar from its first character on, with the end of its line. -/
def scalarLine (indent column : Nat) (tag : Tag) (s : List Char) : List Char :=
  (Style.choose tag s false).shown ⟨indent, true⟩ column s ++ (if endsLine tag s then [] else ['\n'])

/-- **A scalar with the end of its line is scanned as one token.** -/
theorem scan_scalar (column : Nat) (indents : List Nat) (allows : Bool) (before : List Token) {tag : Tag}
    (hlegible : LegibleText (i + 2) tag s false) (hcolumn : i < p.column)
    (hrest : Resumes (i + 1) feeds rest)
    (hfeeds : feeds = 0 ∨ (endsLine tag s && (blockHints s).getLast? == some '+') = false) :
    scanFrom p (i :: indents) allows before (scalarLine (i + 2) column tag s ++ rest) =
      scanFrom (p.after (scalarLine (i + 2) column tag s)) (i :: indents) true
        (.scalar (Style.choose tag s false == .plain) (String.ofList s) :: before) rest ∧
      (p.after (scalarLine (i + 2) column tag s)).column = 0 := by
  have hindent : (⟨i + 2, true⟩ : Folding).indent ≠ 0 := by simp
  cases hstyle : Style.choose tag s false with
  | plain =>
    have hline : endsLine tag s = false := by simp [endsLine, hstyle]
    simp only [scalarLine, hstyle, Style.shown, hline, Bool.false_eq_true, if_false, List.append_assoc,
      List.singleton_append]
    exact ⟨scan_plain (choose_plain hstyle) (hlegible.nonempty hstyle) hcolumn hrest, Position.column_after_feed p _⟩
  | single =>
    have hline : endsLine tag s = false := by simp [endsLine, hstyle]
    obtain ⟨hsingle, hblock, -⟩ := choose_single hstyle
    have htag : tag = .text := by simpa [hidesTag, hstyle] using hlegible.hidden
    have hfeed : '\n' ∉ s := by simpa [prefersBlock, htag] using hblock
    have hnext := hlegible.noNextLine (by simp [hstyle])
    simp only [scalarLine, hstyle, Style.shown, hline, Bool.false_eq_true, if_false, List.append_assoc,
      List.singleton_append]
    refine ⟨?_, Position.column_after_feed p _⟩
    exact scan_quoted (.inl rfl) (fun rest h => by
      obtain ⟨shown, hshown, hread⟩ := quotedFrom_singleQuoted hsingle hfeed hnext hindent h column
      rw [(List.cons.inj hshown).2]
      exact hread) hcolumn rest
  | double =>
    have hline : endsLine tag s = false := by simp [endsLine, hstyle]
    simp only [scalarLine, hstyle, Style.shown, hline, Bool.false_eq_true, if_false, List.append_assoc,
      List.singleton_append]
    refine ⟨?_, Position.column_after_feed p _⟩
    exact scan_quoted (.inr rfl) (fun rest _ => by
      obtain ⟨shown, hshown, hread⟩ :=
        quotedFrom_doubleQuoted hindent (fun _ => hlegible.keptSpaces hstyle rfl) column rest
      rw [(List.cons.inj hshown).2]
      exact hread) hcolumn rest
  | block =>
    have hline : endsLine tag s := by simp [endsLine, hstyle]
    have hne : s ≠ [] := by
      have := (choose_block hstyle).1
      simp only [allowsBlock, Bool.and_eq_true, Bool.not_eq_true', List.isEmpty_eq_false_iff] at this
      exact this.1.1
    have hnext := hlegible.noNextLine (by simp [hstyle])
    simp only [scalarLine, hstyle, Style.shown, hline, if_true, List.append_nil]
    refine ⟨scan_block hne hnext hcolumn hrest (hfeeds.imp_right fun h hkeep => ?_), column_after_blockText p _ hne⟩
    simp [hline, blockHints_eq, hkeep, Chomping.sign] at h

end Line

/-! ## Keys on one line -/

section Key

open Scanner

variable {p : Position} {indents : List Nat} {before : List Token} {s r : List Char} {f : Folding} {column : Nat}

/-- Text on one line is written character by character. -/
theorem foldedFrom_inline (hfolds : f.folds = false) (hbreak : ∀ c ∈ s, isBreak c = false) {quote : List Char}
    {gap : Gap} {first : Bool} (hgap : gap ≠ .breaks) : foldedFrom f quote column gap first s =
      gap.pending ++ s.flatMap fun c => if c = '\'' then quote else [c] := by
  have hclose : ∀ {gap : Gap} {column}, gap ≠ .breaks → (gap.close f column).1 = gap.pending := by
    intro gap column hgap
    cases gap with
    | none => rfl
    | spaces count atStart => simp [Gap.close, hfolds, Gap.pending]
    | breaks => exact absurd rfl hgap
  induction s generalizing column gap first with
  | nil =>
    cases gap with
    | none => rfl
    | spaces count atStart => simp [foldedFrom, Gap.finish, Gap.pending]
    | breaks => exact absurd rfl hgap
  | cons c r ih =>
    have hr := fun d hd => hbreak d (.tail _ hd)
    by_cases hspace : c = ' '
    · subst hspace
      cases gap with
      | none =>
        have hspaces : Gap.spaces 1 first ≠ .breaks := by simp
        simpa [foldedFrom, Gap.close, Gap.pending, spaces] using ih hr hspaces
      | spaces count atStart =>
        have hspaces : Gap.spaces (count + 1) atStart ≠ .breaks := by simp
        simp [foldedFrom, ih hr hspaces, Gap.pending, spaces_append_space]
      | breaks => exact absurd rfl hgap
    · rw [foldedFrom_char hspace (hbreak c (.head _)), hclose hgap, ih hr (by simp)]
      rfl

/-- Plain text on one line is written as it is. -/
theorem plainText_inline (hfolds : f.folds = false) (hbreak : ∀ c ∈ s, isBreak c = false) :
    plainText f column s = s := by
  have hsame : (fun c => if c = '\'' then ['\''] else [c]) = fun c : Char => [c] := by
    funext c
    split <;> simp_all
  rw [plainText, foldedFrom_inline hfolds hbreak (by simp), hsame, List.flatMap_singleton']
  rfl

/-- A document may hold the character, and a file gives it back. -/
def isWritten (c : Char) : Bool := isPrintable c && c != '\r'

theorem isPrintable_of_isWritten {c : Char} (h : isWritten c) : isPrintable c := by
  rw [isWritten, Bool.and_eq_true] at h
  exact h.1

theorem isWritten_of_isOrdinary {c : Char} (h : isOrdinary c) : isWritten c ∧ c ≠ '\ufeff' := by
  have hreturn : c ≠ '\r' := by rintro rfl; exact absurd h (by decide)
  refine ⟨?_, by rintro rfl; exact absurd h (by decide)⟩
  rw [isWritten, bne_iff_ne.mpr hreturn, Bool.and_true]
  simp only [isOrdinary, Bool.or_eq_true, decide_eq_true_eq, Bool.and_eq_true] at h
  simp only [isPrintable, Bool.or_eq_true, beq_iff_eq, decide_eq_true_eq, Bool.and_eq_true]
  rcases h with ((rfl | rfl) | h) | h
  · simp
  · simp
  · exact .inl (.inl (.inr h))
  · exact .inr ⟨⟨h.1.1.1.1, h.1.1.2⟩, h.1.2⟩

theorem isWritten_of_isShown {c : Char} (h : isShown c) : isWritten c ∧ c ≠ '\ufeff' ∧ isBreak c = false := by
  simp only [isShown, isVerbatim, Bool.or_eq_true, Bool.and_eq_true, Bool.not_eq_true', decide_eq_true_eq,
    beq_iff_eq] at h
  rcases h with (⟨hne, h⟩ | rfl) | rfl
  · have hne : c ≠ '"' ∧ c ≠ '\\' ∧ c ≠ '\u0085' ∧ c ≠ '\u2028' ∧ c ≠ '\u2029' ∧ c ≠ '\ufeff' := by simpa using hne
    have hbreak : isBreak c = false := by
      have hfeed : c ≠ '\n' := by rintro rfl; exact absurd h (by decide)
      simp [isBreak, hne, hfeed]
    have hreturn : c ≠ '\r' := by rintro rfl; exact absurd h (by decide)
    refine ⟨?_, hne.2.2.2.2.2, hbreak⟩
    rw [isWritten, bne_iff_ne.mpr hreturn, Bool.and_true]
    simp only [isPrintable, Bool.or_eq_true, beq_iff_eq, decide_eq_true_eq, Bool.and_eq_true]
    rcases h with h | ⟨hlow, hhigh⟩
    · exact .inl (.inl (.inr h))
    · refine .inr ⟨⟨hlow, ?_⟩, ?_⟩ <;>
      · rw [bne_iff_ne]
        rintro rfl
        exact absurd hhigh (by decide)
  · decide
  · decide

/-- A scalar is written in characters that a document may hold; where lines may not break, on one line. -/
theorem mem_shown {tag : Tag} {onOneLine : Bool} {c : Char} (h : c ∈ (Style.choose tag s onOneLine).shown f column s) :
    isWritten c ∧ c ≠ '\ufeff' ∧ (onOneLine → f.folds = false → isBreak c = false) := by
  have hsign : c = '\'' ∨ c = ' ' → isWritten c ∧ c ≠ '\ufeff' ∧ (onOneLine → f.folds = false → isBreak c = false) := by
    rintro (rfl | rfl) <;> exact ⟨by decide, by decide, fun _ _ => by decide⟩
  have hfeed : c = '\n' ∧ f.folds → isWritten c ∧ c ≠ '\ufeff' ∧ (onOneLine → f.folds = false → isBreak c = false) := by
    rintro ⟨rfl, hfolds⟩
    exact ⟨by decide, by decide, fun _ h => by simp [hfolds] at h⟩
  cases hstyle : Style.choose tag s onOneLine with
  | plain =>
    rw [hstyle] at h
    rcases mem_foldedFrom h with h | h | h | h
    · obtain ⟨hordinary, hbreak⟩ := isOrdinary_of_allowsPlain (choose_plain hstyle) c h
      obtain ⟨hprintable, hmark⟩ := isWritten_of_isOrdinary hordinary
      exact ⟨hprintable, hmark, fun _ _ => hbreak⟩
    · exact hsign (.inl (List.mem_singleton.mp h))
    · exact hsign (.inr h)
    · exact hfeed h
  | single =>
    rw [hstyle] at h
    obtain ⟨hsingle, -, hmulti⟩ := choose_single hstyle
    simp only [Style.shown, singleQuoted, List.cons_append, List.mem_cons, List.mem_append, List.not_mem_nil,
      or_false] at h
    rcases h with h | h | h
    · exact hsign (.inl h)
    · rcases mem_foldedFrom h with h | h | h | h
      · simp only [allowsSingle, needsEscapes, Bool.and_eq_true, Bool.not_eq_eq_eq_not, Bool.not_true,
          Bool.or_eq_false_iff] at hsingle
        obtain ⟨hprintable, hmark⟩ :=
          isWritten_of_isOrdinary (by simpa using List.any_eq_false.mp hsingle.1.2 c h)
        exact ⟨hprintable, hmark, fun hline _ => by simpa using List.any_eq_false.mp (hmulti hline) c h⟩
      · exact hsign (.inl (by simpa using h))
      · exact hsign (.inr h)
      · exact hfeed h
    · exact hsign (.inl h)
  | double =>
    rw [hstyle] at h
    simp only [Style.shown, doubleQuoted, List.cons_append, List.mem_cons, List.mem_append, List.not_mem_nil,
      or_false] at h
    have hshown : isShown c ∨ (c = '\n' ∧ f.folds) := by
      rcases h with rfl | h | rfl
      · exact .inl (by decide)
      · exact mem_doubleFrom h
      · exact .inl (by decide)
    rcases hshown with h | h
    · obtain ⟨hprintable, hmark, hbreak⟩ := isWritten_of_isShown h
      exact ⟨hprintable, hmark, fun _ _ => hbreak⟩
    · exact hfeed h
  | block =>
    rw [hstyle] at h
    obtain ⟨hblock, rfl⟩ := choose_block hstyle
    simp only [allowsBlock, needsEscapes, Bool.and_eq_true, Bool.not_eq_eq_eq_not, Bool.not_true,
      Bool.or_eq_false_iff] at hblock
    refine (and_assoc.mp ⟨?_, fun h => absurd h (by simp)⟩)
    rcases mem_blockText h with h | h
    · exact isWritten_of_isOrdinary (by simpa using List.any_eq_false.mp hblock.2.2 c h)
    · have hall : ∀ c ∈ ['|', '2', '+', '-', ' ', '\n'], isWritten c ∧ c ≠ '\ufeff' :=
        List.all_iff_forall_prop.mp (by decide)
      exact hall c h

/-- A key that stands on one line is scanned as one token. -/
theorem scan_keyWord {tag : Tag} (hlegible : LegibleText 0 tag s true) (hfolds : f.folds = false)
    (hindent : f.indent ≠ 0)
    (hfits : Fits indents p.column) (hr : separatorAhead r) :
    scanFrom p indents true before ((Style.choose tag s true).shown f column s ++ ':' :: r) =
      tokensFrom 0 ⟨p.after ((Style.choose tag s true).shown f column s), indents, keyHere p indents true before, [],
        false, .scalar (Style.choose tag s true == .plain) (String.ofList s) :: before⟩ (':' :: r) := by
  have hquoted : ∀ {quote shown}, quote = '\'' ∨ quote = '"' →
      quotedFrom quote 0 .none (shown ++ ':' :: r) = .ok (s, shown.length) →
      scanFrom p indents true before (quote :: shown ++ ':' :: r) =
        tokensFrom 0 ⟨p.after (quote :: shown), indents, keyHere p indents true before, [], false,
          .scalar false (String.ofList s) :: before⟩ (':' :: r) := fun {quote shown} hquote hread => by
    have hbegins : beginsToken quote := by obtain rfl | rfl := hquote <;> decide
    rw [scan_word hfits hbegins (step_quoted hquote hread)]
  have hrest : (':' :: r).head? ≠ some '\'' := by simp
  cases hstyle : Style.choose tag s true with
  | plain =>
    have hplain := choose_plain hstyle
    obtain ⟨c, t, rfl⟩ := List.exists_cons_of_ne_nil (hlegible.nonempty hstyle)
    obtain ⟨hlead, hseparator, hsign, hboundary⟩ := plain_lead hplain
    have hwritten : ∀ {f column}, Folding.folds f = false → plainText f column (c :: t) = c :: t := fun hfolds =>
      plainText_inline hfolds fun d hd => (isOrdinary_of_allowsPlain hplain d hd).2
    have hread := plainFrom_plainText
      (f := ⟨innerIndent ⟨p, indents, none, [], true, before⟩ + 1, false⟩) _ 0 hplain (Nat.le_succ _) (by simp)
        (':' :: r)
    rw [hwritten rfl, plainFrom_colon hr] at hread
    have hahead : separatorAhead t = false → separatorAhead (t ++ ':' :: r) = false := by
      cases t <;> simp [separatorAhead]
    have hstep : step ⟨p, indents, none, [], true, before⟩ c (t ++ ':' :: r) =
        .ok (⟨p, indents, keyHere p indents true before, [], false, .scalar true (String.ofList (c :: t)) :: before⟩,
          t.length + 1) :=
      step_plain hlead hseparator (fun hc => hahead (hsign hc)) (fun _ => hboundary r) rfl
        (hread.trans (by simp [addWords]))
    rw [Style.shown, hwritten hfolds]
    rw [scan_word hfits (beginsToken_of_lead hlead hseparator (isOrdinary_of_allowsPlain hplain c (.head _)).1) hstep]
    rfl
  | single =>
    obtain ⟨hsingle, -, hmulti⟩ := choose_single hstyle
    have hnobreak : ∀ c ∈ s, isBreak c = false := fun c hc => by simpa using List.any_eq_false.mp (hmulti rfl) c hc
    have hfeed : '\n' ∉ s := fun h => absurd (hnobreak _ h) (by decide)
    have hnext : '\u0085' ∉ s := fun h => absurd (hnobreak _ h) (by decide)
    obtain ⟨shown, hshown, hread⟩ := quotedFrom_singleQuoted hsingle hfeed hnext hindent hrest column
    rw [Style.shown, hshown]
    exact hquoted (.inl rfl) hread
  | double =>
    obtain ⟨shown, hshown, hread⟩ := quotedFrom_doubleQuoted hindent (fun h => by simp [hfolds] at h) column (':' :: r)
    rw [Style.shown, hshown]
    exact hquoted (.inr rfl) hread
  | block => cases (choose_block hstyle).2

/-- The colon behind a key on one line puts the sign for the key before it, and that for the beginning of a map
where none has begun at its column. -/
theorem tokensFrom_colon {q : Position} {required : Bool} {token : Token} (hline : q.line = p.line)
    (hindex : q.index ≤ p.index + 1024) (hfits : Fits indents q.column) (hr : separatorAhead r) :
    tokensFrom 0 ⟨q, indents, some ⟨before.length, required, p⟩, [], false, token :: before⟩ (':' :: r) =
      if isDeeper ⟨p, indents, none, [], true, before⟩ p.column then
        scanFrom (q.next ':') (p.column :: indents) false (.value :: token :: .key :: .mapStart :: before) r
      else scanFrom (q.next ':') indents false (.value :: token :: .key :: before) r := by
  have hstale : (⟨q, indents, some ⟨before.length, required, p⟩, [], false, token :: before⟩ : Scanner).isStale
      ⟨before.length, required, p⟩ = false := by
    simp [isStale, hline, hindex]
  have hdrop : (⟨q, indents, some ⟨before.length, required, p⟩, [], false, token :: before⟩ : Scanner).dropStale =
      .ok ⟨q, indents, some ⟨before.length, required, p⟩, [], false, token :: before⟩ := by
    simp [dropStale, hstale, Option.filter]
  have htake : (before.length + 1) - before.length = 1 := by omega
  cases hdeeper : isDeeper ⟨p, indents, none, [], true, before⟩ p.column with
  | true =>
    have hdeeper' : indents.head?.all (· < p.column) = true := hdeeper
    have hstep : step ⟨q, indents, some ⟨before.length, required, p⟩, [], false, token :: before⟩ ':' ([] ++ r) =
        .ok (⟨q, p.column :: indents, none, [], false, .value :: token :: .key :: .mapStart :: before⟩, 0 + 1) := by
      rw [List.nil_append, step_valueSign hr]
      simp [valueSign, closeKey, isDeeper, inFlow, hdeeper', insertTokens, htake, add, Except.map]
    rw [if_pos rfl]
    exact tokensFrom_word (w := []) rfl hdrop hfits (by decide) hstep
  | false =>
    have hdeeper' : indents.head?.all (· < p.column) = false := hdeeper
    have hstep : step ⟨q, indents, some ⟨before.length, required, p⟩, [], false, token :: before⟩ ':' ([] ++ r) =
        .ok (⟨q, indents, none, [], false, .value :: token :: .key :: before⟩, 0 + 1) := by
      rw [List.nil_append, step_valueSign hr]
      simp [valueSign, closeKey, isDeeper, inFlow, hdeeper', insertTokens, htake, add, Except.map]
    rw [if_neg (by simp)]
    exact tokensFrom_word (w := []) rfl hdrop hfits (by decide) hstep

variable {tag : Tag}

theorem after_key (p : Position) (column : Nat) (tag : Tag) (s : List Char) (hfolds : f.folds = false) :
    p.after ((Style.choose tag s true).shown f column s) =
      ⟨p.index + ((Style.choose tag s true).shown f column s).length, p.line,
        p.column + ((Style.choose tag s true).shown f column s).length⟩ :=
  Position.after_inline p fun _ hc => (mem_shown hc).2.symm.imp_left fun h => h rfl hfolds

/-- **A key on one line is scanned with its colon** as the key of an entry, in a map that has begun. -/
theorem scan_key (indents : List Nat) (before : List Token) {i : Nat} (hlegible : LegibleText 0 tag s true)
    (hfolds : f.folds = false) (hindent : f.indent ≠ 0)
    (hshort : ((Style.choose tag s true).shown f column s).length ≤ 1024) (hcolumn : p.column = i)
    (hr : separatorAhead r) :
    scanFrom p (i :: indents) true before ((Style.choose tag s true).shown f column s ++ ':' :: r) =
      scanFrom (p.after ((Style.choose tag s true).shown f column s ++ [':'])) (i :: indents) false
        (.value :: .scalar (Style.choose tag s true == .plain) (String.ofList s) :: .key :: before) r := by
  subst hcolumn
  have hafter := after_key p column tag s hfolds
  have hfits : Fits (p.column :: indents) (p.after ((Style.choose tag s true).shown f column s)).column := by
    simp [Fits, hafter]
  have hdeeper : isDeeper ⟨p, p.column :: indents, none, [], true, before⟩ p.column = false := by simp [isDeeper]
  rw [scan_keyWord hlegible hfolds hindent (by simp [Fits]) hr, keyHere, if_pos rfl,
    tokensFrom_colon (by rw [hafter]) (by rw [hafter]; simpa using hshort) hfits hr, hdeeper, if_neg (by simp),
    Position.after_append]
  rfl

/-- A key that stands further right than the lists and maps around begins a map. -/
theorem scan_firstKey (hlegible : LegibleText 0 tag s true) (hfolds : f.folds = false) (hindent : f.indent ≠ 0)
    (hshort : ((Style.choose tag s true).shown f column s).length ≤ 1024)
    (hdeeper : ∀ i ∈ indents.head?, i < p.column) (hr : separatorAhead r) :
    scanFrom p indents true before ((Style.choose tag s true).shown f column s ++ ':' :: r) =
      scanFrom p (p.column :: indents) true (.mapStart :: before)
        ((Style.choose tag s true).shown f column s ++ ':' :: r) := by
  have hafter := after_key p column tag s hfolds
  have hfits : Fits indents (p.after ((Style.choose tag s true).shown f column s)).column := fun i hi => by
    have := hdeeper i hi
    rw [hafter]
    simp only
    omega
  have hopen : isDeeper ⟨p, indents, none, [], true, before⟩ p.column := by
    cases indents with
    | nil => rfl
    | cons i rest => simpa [isDeeper] using hdeeper i (by simp)
  rw [scan_keyWord hlegible hfolds hindent (fun i hi => Nat.le_of_lt (hdeeper i hi)) hr, keyHere, if_pos rfl,
    tokensFrom_colon (by rw [hafter]) (by rw [hafter]; simpa using hshort) hfits hr, hopen, if_pos rfl,
    scan_key _ _ hlegible hfolds hindent hshort rfl hr, Position.after_append]
  rfl

end Key

end LayerLint.Yaml
