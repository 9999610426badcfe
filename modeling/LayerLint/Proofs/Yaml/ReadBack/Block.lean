import LayerLint.Yaml.Token.Block
import LayerLint.Proofs.Yaml.ReadBack.Plain

/-!
# Blocks read back

A text that is written as a block reads back line by line, with the ends of lines at its end
(`blockScalar_blockText`). Only the next-line character does not survive: it reads as a line feed.
-/

namespace LayerLint.Yaml

/-- What becomes of the ends of lines at the end of a text, so that all of them are kept. -/
def chompingOf (s : List Char) : Chomping :=
  match s.reverse with
  | c :: rest => if !isBreak c then .strip else if rest.isEmpty || rest.head?.any isBreak then .keep else .clip
  | [] => .clip

/-- The ends of lines that a gap stands for. -/
def BlockGap.pending (gap : BlockGap) : List Char := gap.last.toList.map (·.1) ++ gap.breaks

theorem BlockGap.text_eq_pending (gap : BlockGap) (indent : Nat) (chomping : Chomping) (c : Char) :
    gap.text ⟨indent, false, chomping⟩ c = gap.pending := by
  cases h : gap.last with
  | none => simp [BlockGap.text, BlockGap.pending, h]
  | some last => simp [BlockGap.text, BlockGap.pending, h]

theorem chompingOf_concat {c : Char} (hc : isBreak c = false) (s : List Char) : chompingOf (s ++ [c]) = .strip := by
  simp [chompingOf, hc]

theorem chompingOf_pair {c d : Char} (hd : isBreak d) (s : List Char) :
    chompingOf (s ++ [c, d]) = if isBreak c then .keep else .clip := by
  simp [chompingOf, hd]

/-- At the end of a text, the ends of lines that were read since its last other character are all kept. -/
theorem BlockGap.ending_eq_pending (gap : BlockGap) (before : List Char) (hne : gap.pending ≠ [])
    (hbreaks : ∀ c ∈ gap.pending, isBreak c) (hnone : gap.last = none → before = [])
    (hsome : gap.last.isSome → ∃ a c, before = a ++ [c] ∧ isBreak c = false) :
    gap.ending (chompingOf (before ++ gap.pending)) = gap.pending := by
  obtain ⟨column, breaks, last⟩ := gap
  simp only [pending] at hne hbreaks ⊢
  rcases List.eq_nil_or_concat breaks with rfl | ⟨init, b, rfl⟩
  · -- one end of line behind another character
    cases last with
    | none => exact absurd rfl hne
    | some last =>
      obtain ⟨a, c, rfl, hc⟩ := hsome rfl
      have hclip := chompingOf_pair (c := c) (hbreaks last.1 (by simp)) a
      rw [hc] at hclip
      simp [hclip, ending]
  · -- several ends of lines, or nothing but one
    rw [List.concat_eq_append] at hbreaks ⊢
    have hb : isBreak b := hbreaks b (by simp)
    suffices h : chompingOf (before ++ (last.toList.map (·.1) ++ (init ++ [b]))) = .keep by rw [h, ending]
    rcases List.eq_nil_or_concat (last.toList.map (·.1) ++ init) with h | ⟨q, x, h⟩
    · obtain ⟨hlast, rfl⟩ := List.append_eq_nil_iff.mp h
      rw [hlast, hnone (by cases last <;> simp_all)]
      simp [chompingOf, hb]
    · rw [List.concat_eq_append] at h
      have hx : isBreak x := hbreaks x (by rw [← List.append_assoc, h]; simp)
      rw [← List.append_assoc (last.toList.map (·.1)), h]
      simpa [hx] using chompingOf_pair (c := x) hb (before ++ q)

section Lines

variable {indent : Nat} {chomping : Chomping}

/-- The indentation of a line of a block. -/
theorem blockFrom_indentation (n column : Nat) (h : column + n ≤ indent) (breaks : List Char)
    (last : Option (Char × Bool)) (s : List Char) :
    blockFrom ⟨indent, false, chomping⟩ (.inr ⟨column, breaks, last⟩) (spaces n ++ s) =
      let (text, count) := blockFrom ⟨indent, false, chomping⟩ (.inr ⟨column + n, breaks, last⟩) s
      (text, n + count) := by
  induction n generalizing column with
  | zero => simp [spaces]
  | succ n ih =>
    rw [spaces_succ, List.cons_append, blockFrom, if_pos ⟨rfl, by simp; omega⟩, ih (column + 1) (by omega)]
    simp only [addLine, List.nil_append, Nat.add_assoc, Nat.add_comm 1 n, Prod.mk.injEq, true_and]
    omega

/-- The first character of a line of a block. -/
theorem blockFrom_lineStart {c : Char} (hc : isBreak c = false) (breaks : List Char) (last : Option (Char × Bool))
    (s : List Char) :
    blockFrom ⟨indent, false, chomping⟩ (.inr ⟨indent, breaks, last⟩) (c :: s) =
      addLine (BlockGap.pending ⟨indent, breaks, last⟩ ++ [c])
        (blockFrom ⟨indent, false, chomping⟩ (.inl (!isTabOrSpace c)) s) := by
  rw [blockFrom]
  simp [hc, BlockGap.text_eq_pending]

/-- The lines of the rest of a text, as they are written, are read as they were. `before` is what was read of the
text, up to the gap. -/
theorem blockFrom_blockLines {text rest : List Char} {n : Nat} (hnext : '\u0085' ∉ text)
    (hrest : ∀ breaks last, blockFrom ⟨indent, false, chompingOf text⟩ (.inr ⟨0, breaks, last⟩) rest =
      (BlockGap.ending ⟨0, breaks, last⟩ (chompingOf text), n)) (s : List Char) :
    (∀ before c flush, isBreak c = false → before ++ [c] ++ s = text →
      blockFrom ⟨indent, false, chompingOf text⟩ (.inl flush) (blockLines indent false s ++ rest) =
        (s, (blockLines indent false s).length + n)) ∧
    (∀ before breaks last, before ++ BlockGap.pending ⟨0, breaks, last⟩ ++ s = text → text ≠ [] →
      (∀ c ∈ BlockGap.pending ⟨0, breaks, last⟩, isBreak c) → (last = none → before = []) →
      (last.isSome → ∃ a c, before = a ++ [c] ∧ isBreak c = false) →
      blockFrom ⟨indent, false, chompingOf text⟩ (.inr ⟨0, breaks, last⟩) (blockLines indent true s ++ rest) =
        (BlockGap.pending ⟨0, breaks, last⟩ ++ s, (blockLines indent true s).length + n)) := by
  induction s with
  | nil =>
    refine ⟨fun before c flush hc htext => ?_, fun before breaks last htext hne hbreaks hnone hsome => ?_⟩
    · have hstrip : chompingOf text = .strip := by rw [← htext, List.append_nil, chompingOf_concat hc]
      rw [blockLines]
      simp only [Bool.false_eq_true, if_false, List.singleton_append]
      rw [blockFrom, if_pos (by decide), hrest, hstrip]
      simp [addLine, BlockGap.ending, Nat.add_comm]
    · rw [List.append_nil] at htext
      have hpending : BlockGap.pending ⟨0, breaks, last⟩ ≠ [] := fun h => by
        rw [h, List.append_nil] at htext
        cases last with
        | none => exact hne (htext ▸ hnone rfl)
        | some last => simp [BlockGap.pending] at h
      have hending := BlockGap.ending_eq_pending ⟨0, breaks, last⟩ before hpending hbreaks hnone hsome
      rw [htext] at hending
      rw [blockLines, if_pos rfl, List.nil_append, hrest, hending, List.append_nil]
      simp
  | cons c r ih =>
    refine ⟨fun before d flush hd htext => ?_, fun before breaks last htext hne hbreaks hnone hsome => ?_⟩
    · by_cases hc : isBreak c = true
      · have hkept : breakText c = c := if_neg fun h => hnext (by rw [← htext, h]; simp)
        have hread := ih.2 (before ++ [d]) [] (some (c, flush)) (by simpa [BlockGap.pending] using htext)
          (by rw [← htext]; simp) (by simpa [BlockGap.pending] using hc) (by simp) fun _ => ⟨before, d, rfl, hd⟩
        rw [blockLines, if_pos hc, List.cons_append, blockFrom, if_pos hc, hkept, hread]
        simp [addLine, BlockGap.pending]
        omega
      · rw [Bool.not_eq_true] at hc
        have hread := ih.1 (before ++ [d]) c flush hc (by simpa using htext)
        rw [blockLines, hc]
        simp only [Bool.false_eq_true, if_false, List.nil_append, List.cons_append]
        rw [blockFrom, hc, if_neg (by simp), hread]
        simp [addLine]
        omega
    · by_cases hc : isBreak c = true
      · have hkept : breakText c = c := if_neg fun h => hnext (by rw [← htext, h]; simp)
        have hspace : c ≠ ' ' := by rintro rfl; cases hc
        have hpending : BlockGap.pending ⟨0, breaks ++ [c], last⟩ = BlockGap.pending ⟨0, breaks, last⟩ ++ [c] := by
          simp [BlockGap.pending]
        have hread := ih.2 before (breaks ++ [c]) last (by rw [hpending]; simpa using htext) hne
          (fun d hd => by
            rw [hpending] at hd
            exact (List.mem_append.mp hd).elim (hbreaks d) fun h => List.mem_singleton.mp h ▸ hc) hnone hsome
        rw [blockLines, if_pos hc, List.cons_append, blockFrom, if_neg fun h => hspace h.1, if_pos hc, hkept, hread,
          hpending]
        simp [addLine]
        omega
      · rw [Bool.not_eq_true] at hc
        have hread := ih.1 (before ++ BlockGap.pending ⟨0, breaks, last⟩) c (!isTabOrSpace c) hc (by simpa using htext)
        rw [blockLines, hc]
        simp only [Bool.false_eq_true, if_false, if_true, List.append_assoc, List.cons_append]
        rw [blockFrom_indentation indent 0 (by omega), Nat.zero_add, blockFrom_lineStart hc, hread]
        simp [addLine, BlockGap.pending]
        omega

/-- A block ends before a line that is indented less. Empty lines before it do not count unless the block keeps all
ends of lines. -/
theorem blockFrom_rest {feeds : Nat} {rest : List Char} (h : Resumes indent feeds rest)
    (hfeeds : feeds = 0 ∨ chomping ≠ .keep) :
    ∃ n, TakesBlanks n rest ∧ ∀ breaks last, blockFrom ⟨indent, false, chomping⟩ (.inr ⟨0, breaks, last⟩) rest =
      (BlockGap.ending ⟨0, breaks, last⟩ chomping, n) := by
  obtain ⟨k, r, rfl, hk, hr⟩ := h
  induction feeds with
  | zero =>
    refine ⟨k, ⟨spaces k, r, rfl, length_spaces k, fun c hc => .inl (List.eq_of_mem_replicate hc)⟩,
      fun breaks last => ?_⟩
    rw [List.replicate_zero, List.nil_append, blockFrom_indentation k 0 (by omega)]
    cases r with
    | nil => simp [blockFrom, BlockGap.ending]
    | cons c r =>
      obtain ⟨hspace, hbreak⟩ := hr c (by simp)
      rw [blockFrom, if_neg fun h => hspace h.1, hbreak]
      simp [show k ≠ indent by omega, BlockGap.ending]
  | succ feeds ih =>
    have hkeep : chomping ≠ .keep := hfeeds.resolve_left (by omega)
    have hending : ∀ breaks breaks' last,
        BlockGap.ending ⟨0, breaks, last⟩ chomping = BlockGap.ending ⟨0, breaks', last⟩ chomping :=
      fun _ _ _ => by cases chomping <;> first | rfl | exact absurd rfl hkeep
    obtain ⟨n, hblanks, hread⟩ := ih (.inr hkeep)
    refine ⟨n + 1, hblanks.feed, fun breaks last => ?_⟩
    rw [List.replicate_succ, List.cons_append, blockFrom, if_neg (by simp), if_pos (by decide), hread, addLine]
    exact congrArg (·, n + 1) (hending _ _ _)

end Lines

/-! ## The head of a block -/

/-- The sign for what becomes of the ends of lines at the end. -/
def Chomping.sign : Chomping → List Char
  | .strip => ['-']
  | .clip => []
  | .keep => ['+']

/-- The text begins with a space or an end of line. -/
def beginsLoose (s : List Char) : Bool := s.head?.any fun c => c == ' ' || isBreak c

theorem blockHints_eq (s : List Char) :
    blockHints s = (if beginsLoose s then ['2'] else []) ++ (chompingOf s).sign := by
  rw [blockHints, chompingOf]
  cases s.reverse with
  | nil => rfl
  | cons c rest =>
    simp only [beginsLoose]
    congr 1
    split
    · rfl
    · split <;> rfl

theorem blockSigns_blockHints (s body : List Char) :
    blockSigns (blockHints s ++ '\n' :: body) =
      .ok (⟨chompingOf s, if beginsLoose s then some 2 else none⟩, '\n' :: body) := by
  have hahead : breakAhead ('\n' :: body) := by simp [breakAhead, isBreak]
  rw [blockHints_eq]
  cases beginsLoose s <;> cases chompingOf s <;>
    simp [Chomping.sign, blockSigns, anySigns, chompingSign?, incrementSign?, Char.isDigit, hahead]

theorem leadingLines_spaces {c : Char} (hspace : c ≠ ' ') (hbreak : isBreak c = false) (r : List Char)
    (n column : Nat) :
    leadingLines column column (spaces n ++ c :: r) = ([], column + n, column + n, n) := by
  induction n generalizing column with
  | zero => simp [spaces, leadingLines, hspace, hbreak]
  | succ n ih =>
    rw [spaces_succ, List.cons_append, leadingLines, if_pos rfl, show max column (column + 1) = column + 1 by omega,
      ih (column + 1)]
    simp only [Prod.mk.injEq, true_and, and_true]
    omega

/-- The lines behind the head of a block, which keeps them, and the number of their characters. -/
def readLines (least : Nat) (header : BlockHeader) (body : List Char) : List Char × Nat :=
  match header.increment with
  | some n => blockFrom ⟨least + n - 1, false, header.chomping⟩ (.inr ⟨0, [], none⟩) body
  | none =>
    let (breaks, widest, column, n) := leadingLines 0 0 body
    let (text, m) := blockFrom ⟨max least widest, false, header.chomping⟩ (.inr ⟨column, breaks, none⟩) (body.drop n)
    (text, n + m)

theorem blockScalar_eq {least : Nat} {s body : List Char} {header : BlockHeader}
    (h : blockSigns s = .ok (header, '\n' :: body)) :
    blockScalar false least s =
      .ok ((readLines least header body).1, s.length - body.length + (readLines least header body).2) := by
  have hempty : emptyLine? ('\n' :: body) = some body := by simp [emptyLine?, isBreak]
  rw [blockScalar, h]
  simp only [bind, Except.bind, hempty]
  rfl

/-- The lines of a text, as they are written, are read as they were, whether their indentation is given or found. -/
theorem readLines_blockLines {s rest : List Char} {least n : Nat} (hne : s ≠ []) (hnext : '\u0085' ∉ s)
    (hrest : ∀ breaks last, blockFrom ⟨least + 1, false, chompingOf s⟩ (.inr ⟨0, breaks, last⟩) rest =
      (BlockGap.ending ⟨0, breaks, last⟩ (chompingOf s), n)) :
    readLines least ⟨chompingOf s, if beginsLoose s then some 2 else none⟩ (blockLines (least + 1) true s ++ rest) =
      (s, (blockLines (least + 1) true s).length + n) := by
  have hread := (blockFrom_blockLines hnext hrest s).2 [] [] none rfl hne (by simp [BlockGap.pending]) (fun _ => rfl)
    (by simp)
  cases hloose : beginsLoose s with
  | true => exact hread
  | false =>
    obtain ⟨c, r, rfl⟩ := List.exists_cons_of_ne_nil hne
    obtain ⟨hspace, hbreak⟩ : c ≠ ' ' ∧ isBreak c = false := by simpa [beginsLoose] using hloose
    have hlines : blockLines (least + 1) true (c :: r) = spaces (least + 1) ++ c :: blockLines (least + 1) false r := by
      simp [blockLines, hbreak]
    rw [hlines, List.append_assoc, List.cons_append] at hread ⊢
    rw [blockFrom_indentation (least + 1) 0 (by omega)] at hread
    simp only [readLines, Bool.false_eq_true, if_false, leadingLines_spaces hspace hbreak, Nat.zero_add,
      show max least (least + 1) = least + 1 by omega]
    rw [List.drop_left' (length_spaces _)]
    simpa [BlockGap.pending] using hread

/-- **A block reads back**, from behind its bar on, up to the less indented line behind it. -/
theorem blockScalar_blockText {s rest : List Char} {n : Nat} (least : Nat) (hne : s ≠ []) (hnext : '\u0085' ∉ s)
    (hrest : ∀ breaks last, blockFrom ⟨least + 1, false, chompingOf s⟩ (.inr ⟨0, breaks, last⟩) rest =
      (BlockGap.ending ⟨0, breaks, last⟩ (chompingOf s), n)) :
    ∃ shown, blockText (least + 1) s = '|' :: shown ∧
      blockScalar false least (shown ++ rest) = .ok (s, shown.length + n) := by
  refine ⟨blockHints s ++ '\n' :: blockLines (least + 1) true s, rfl, ?_⟩
  rw [List.append_assoc, List.cons_append, blockScalar_eq (blockSigns_blockHints s _), readLines_blockLines hne hnext
    hrest]
  simp
  omega

theorem mem_blockLines {indent : Nat} {s : List Char} {atStart : Bool} {d : Char}
    (h : d ∈ blockLines indent atStart s) : d ∈ s ∨ d = ' ' ∨ d = '\n' := by
  induction s generalizing atStart with
  | nil =>
    cases atStart with
    | true => cases h
    | false => exact .inr (.inr (List.mem_singleton.mp h))
  | cons c r ih =>
    have hrest : ∀ {atStart}, d ∈ blockLines indent atStart r → d ∈ c :: r ∨ d = ' ' ∨ d = '\n' :=
      fun h => (ih h).imp_left (List.mem_cons_of_mem _)
    rw [blockLines] at h
    split at h
    · rcases List.mem_cons.mp h with rfl | h
      · exact .inl (.head _)
      · exact hrest h
    · rcases List.mem_append.mp h with h | h
      · split at h
        · exact .inr (.inl (List.eq_of_mem_replicate h))
        · cases h
      · rcases List.mem_cons.mp h with rfl | h
        · exact .inl (.head _)
        · exact hrest h

/-- A block is made of the signs at its head, the characters of the text, spaces and line feeds. -/
theorem mem_blockText {indent : Nat} {s : List Char} {d : Char} (h : d ∈ blockText indent s) :
    d ∈ s ∨ d ∈ ['|', '2', '+', '-', ' ', '\n'] := by
  simp only [blockText, blockHints_eq, List.cons_append, List.mem_cons, List.mem_append] at h
  rcases h with rfl | (h | h) | rfl | h
  · simp
  · split at h <;> simp_all
  · cases hsign : chompingOf s <;> simp_all [Chomping.sign]
  · simp
  · rcases mem_blockLines h with h | rfl | rfl
    · exact .inl h
    · simp
    · simp

end LayerLint.Yaml
