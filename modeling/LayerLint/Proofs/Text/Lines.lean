import LayerLint.Proofs.Text.Search
import LayerLint.Text.Blank
import LayerLint.Text.Lines
import Mathlib.Data.List.DropRight
import Mathlib.Tactic.Common

/-!
# Characters of lines and of trimmed text

Lines hold no end of a line (`isLineBreak_of_mem_lines`), and a text keeps its line feeds where it has no carriage
returns (`unifyNewlines_of_not_mem`). Whether the ends of its lines are unified does not change the lines
(`lines_unifyNewlines`). The first line ends at the first end of a line (`headD_lines`), and joined texts have the lines
of each, if none of them ends in an end of a line (`lines_join`). Trimming takes characters from the ends only
(`trimChars_append_cons`): what holds none of the characters it drops stays in the text (`infix_trimChars`).
-/

namespace LayerLint.Text

theorem isLineBreak_of_mem_lines {s line : List Char} (h : line ∈ lines s) {c : Char} (hc : c ∈ line) :
    isLineBreak c = false := by
  fun_induction lines s generalizing line c with
  | case1 => cases h
  | case2 r ih =>
    rcases List.mem_cons.mp h with rfl | h
    · cases hc
    · exact ih h hc
  | case3 d r hcr hbreak ih =>
    rcases List.mem_cons.mp h with rfl | h
    · cases hc
    · exact ih h hc
  | case4 d r hcr hbreak hlines ih =>
    obtain rfl := List.mem_singleton.mp h
    obtain rfl := List.mem_singleton.mp hc
    simpa using hbreak
  | case5 d r hcr hbreak first rest hlines ih =>
    rw [hlines] at ih
    rcases List.mem_cons.mp h with rfl | h
    · rcases List.mem_cons.mp hc with rfl | hc
      · simpa using hbreak
      · exact ih (.head _) hc
    · exact ih (.tail _ h) hc

theorem mem_of_mem_trimChars {drops : Char → Bool} {s : List Char} {c : Char} (h : c ∈ trimChars drops s) : c ∈ s := by
  rw [trimChars, List.mem_reverse] at h
  have := (List.dropWhile_sublist drops).subset h
  rw [List.mem_reverse] at this
  exact (List.dropWhile_sublist drops).subset this

theorem unifyNewlines_of_not_mem {s : List Char} (h : '\r' ∉ s) : unifyNewlines s = s := by
  fun_induction unifyNewlines s with
  | case1 => rfl
  | case2 r ih => exact absurd (.head _) h
  | case3 c r hcr ih =>
    obtain ⟨hc, hr⟩ := not_or.mp (List.mem_cons.not.mp h)
    rw [if_neg (Ne.symm hc), ih hr]

theorem lines_unifyNewlines (s : List Char) : lines (unifyNewlines s) = lines s := by
  fun_induction unifyNewlines s with
  | case1 => rfl
  | case2 r ih =>
    rw [lines.eq_3 _ _ (by simp), ih]
    rfl
  | case3 c r hcr ih =>
    by_cases hc : c = '\r'
    · subst hc
      have hr : ∀ rest, r ≠ '\n' :: rest := fun rest h => hcr rest rfl h
      rw [if_pos rfl, lines.eq_3 _ _ (by simp), lines.eq_3 _ _ fun rest _ h => hr rest h, ih]
      rfl
    · rw [if_neg hc, lines.eq_3 _ _ fun rest h => absurd h hc, lines.eq_3 _ _ fun rest h => absurd h hc, ih]

/-! ## Single lines and joined texts -/

theorem lines_ne_nil {s : List Char} (h : s ≠ []) : lines s ≠ [] := by
  fun_cases lines s
  · exact absurd rfl h
  all_goals simp_all

theorem lines_cons {c : Char} (hc : isLineBreak c = false) (r : List Char) :
    lines (c :: r) = (c :: (lines r).headD []) :: (lines r).tail := by
  rw [lines.eq_3 _ _ (by rintro _ rfl; cases hc), if_neg (by simp [hc])]
  cases lines r <;> rfl

/-- The first line ends at the first end of a line. -/
theorem headD_lines (s : List Char) : (lines s).headD [] = s.takeWhile (!isLineBreak ·) := by
  fun_induction lines s with
  | case1 => rfl
  | case2 r ih => rfl
  | case3 c r hcr hbreak ih => simp [hbreak]
  | case4 c r hcr hbreak hlines ih => simp_all
  | case5 c r hcr hbreak first rest hlines ih => simp_all

theorem lines_of_forall {s : List Char} (hne : s ≠ []) (h : ∀ c ∈ s, isLineBreak c = false) : lines s = [s] := by
  induction s with
  | nil => exact absurd rfl hne
  | cons c r ih =>
    rw [lines_cons (h c (.head _))]
    cases r with
    | nil => rfl
    | cons d r =>
      rw [ih (by simp) fun d hd => h d (.tail _ hd)]
      rfl

section Joined

variable {s : List Char} (hlast : ∀ c ∈ s.getLast?, isLineBreak c = false)

include hlast

/-- A text of a single line has no end of a line inside. -/
theorem isLineBreak_of_length_lines (h : (lines s).length ≤ 1) {c : Char} (hc : c ∈ s) : isLineBreak c = false := by
  fun_induction lines s with
  | case1 => cases hc
  | case2 r ih =>
    have hr : lines r = [] := by simpa using h
    obtain rfl : r = [] := by_contra fun hne => lines_ne_nil hne hr
    cases hlast '\n' rfl
  | case3 d r hcr hbreak ih =>
    have hr : lines r = [] := by simpa using h
    obtain rfl : r = [] := by_contra fun hne => lines_ne_nil hne hr
    cases hbreak.symm.trans (hlast d rfl)
  | case4 d r hcr hbreak hlines ih =>
    obtain rfl : r = [] := by_contra fun hne => lines_ne_nil hne hlines
    rw [List.mem_singleton.mp hc]
    simpa using hbreak
  | case5 d r hcr hbreak first rest hlines ih =>
    rcases List.mem_cons.mp hc with rfl | hc
    · simpa using hbreak
    · rw [hlines] at ih
      cases r with
      | nil => cases hc
      | cons e r => exact ih hlast h hc

/-- A line feed behind a text separates its lines from the others. -/
theorem lines_append_newline (hne : s ≠ []) (rest : List Char) : lines (s ++ '\n' :: rest) = lines s ++ lines rest := by
  fun_induction lines s with
  | case1 => exact absurd rfl hne
  | case2 r ih =>
    cases r with
    | nil => cases hlast '\n' rfl
    | cons d r =>
      rw [List.cons_append, List.cons_append, lines.eq_2, ih hlast (by simp)]
      rfl
  | case3 c r hcr hbreak ih =>
    cases r with
    | nil => cases hbreak.symm.trans (hlast c rfl)
    | cons d r =>
      have hnot : ∀ more, c = '\r' → (d :: r) ++ '\n' :: rest = '\n' :: more → False := by
        rintro more hc ⟨rfl, -⟩
        exact hcr _ hc rfl
      rw [List.cons_append, lines.eq_3 _ _ hnot, if_pos hbreak, ih hlast (by simp)]
      rfl
  | case4 c r hcr hbreak hlines ih =>
    obtain rfl : r = [] := by_contra fun hr => lines_ne_nil hr hlines
    rw [List.singleton_append, lines_cons (by simpa using hbreak)]
    rfl
  | case5 c r hcr hbreak first more hlines ih =>
    cases r with
    | nil => cases hlines
    | cons d r =>
      rw [List.cons_append, lines_cons (by simpa using hbreak), ih hlast (by simp), hlines]
      rfl

end Joined

/-- **Joined texts have the lines of each.** -/
theorem lines_join {parts : List String}
    (h : ∀ part ∈ parts, part.toList ≠ [] ∧ ∀ c ∈ part.toList.getLast?, isLineBreak c = false) :
    lines (join "\n" parts).toList = parts.flatMap fun part => lines part.toList := by
  induction parts with
  | nil => rfl
  | cons part more ih =>
    obtain ⟨hne, hlast⟩ := h part (.head _)
    cases more with
    | nil => simp [join]
    | cons next more =>
      have hchars : (join "\n" (part :: next :: more)).toList =
          part.toList ++ '\n' :: (join "\n" (next :: more)).toList := by
        rw [join_cons_cons]
        simp
      rw [hchars, lines_append_newline hlast hne, ih fun part hpart => h part (.tail _ hpart)]
      rfl

/-! ## Trimmed text -/

section Trim

variable {drops : Char → Bool}

theorem rdropWhile_append_cons {c : Char} (hc : drops c = false) (a s : List Char) :
    (a ++ c :: s).rdropWhile drops = a ++ c :: s.rdropWhile drops := by
  simp only [List.rdropWhile, List.reverse_append, List.reverse_cons, List.append_assoc, List.cons_append,
    List.nil_append, List.dropWhile_append]
  split
  · rename_i hempty
    simp [List.isEmpty_iff.mp hempty, hc]
  · simp

theorem dropWhile_append_cons {lead : List Char} (hlead : ∀ c ∈ lead, drops c) {c : Char} (hc : drops c = false)
    (s : List Char) : (lead ++ c :: s).dropWhile drops = c :: s := by
  rw [List.dropWhile_append_of_pos hlead, List.dropWhile_cons_of_neg (by simp [hc])]

/-- Only characters at the ends are dropped. -/
theorem exists_eq_append_trimChars (drops : Char → Bool) (s : List Char) :
    ∃ lead tail, (∀ c ∈ lead, drops c) ∧ s = lead ++ trimChars drops s ++ tail := by
  refine ⟨s.takeWhile drops, (s.dropWhile drops).rtakeWhile drops, fun c => List.mem_takeWhile_imp, ?_⟩
  calc s = s.takeWhile drops ++ s.dropWhile drops := List.takeWhile_append_dropWhile.symm
    _ = s.takeWhile drops ++ (trimChars drops s ++ (s.dropWhile drops).rtakeWhile drops) := by
      rw [trimChars, ← List.rdropWhile, List.rdropWhile_append_rtakeWhile]
    _ = _ := (List.append_assoc _ _ _).symm

/-- In front of the first character that stays everything is dropped. -/
theorem trimChars_append_cons {lead : List Char} (hlead : ∀ c ∈ lead, drops c) {c : Char} (hc : drops c = false)
    (s : List Char) : trimChars drops (lead ++ c :: s) = c :: s.rdropWhile drops := by
  rw [trimChars, dropWhile_append_cons hlead hc]
  exact rdropWhile_append_cons hc [] s

/-- What is kept between characters that are dropped. -/
theorem trimChars_append_append {lead mid tail : List Char} (hlead : ∀ c ∈ lead, drops c)
    (hmid : ∀ c ∈ mid, drops c = false) (hne : mid ≠ []) (htail : ∀ c ∈ tail, drops c) :
    trimChars drops (lead ++ mid ++ tail) = mid := by
  have hstays : ∀ s : List Char, (∀ c ∈ s, drops c = false) → s.dropWhile drops = s := fun s hs =>
    List.dropWhile_eq_self_iff.mpr fun hlen => by simp [hs _ (List.getElem_mem hlen)]
  obtain ⟨first, rest, rfl⟩ := List.exists_cons_of_ne_nil hne
  rw [List.append_assoc, List.cons_append, trimChars_append_cons hlead (hmid _ (.head _)), List.rdropWhile,
    List.reverse_append, List.dropWhile_append_of_pos (by simpa using htail),
    hstays _ fun c hc => hmid c (.tail _ (List.mem_reverse.mp hc)), List.reverse_reverse]

theorem infix_dropWhile {needle s : List Char} (hkeeps : ∀ c ∈ needle, drops c = false) (h : needle <:+: s) :
    needle <:+: s.dropWhile drops := by
  obtain ⟨a, b, rfl⟩ := h
  cases needle with
  | nil => exact List.nil_infix
  | cons c more =>
    rw [List.append_assoc, List.dropWhile_append, List.cons_append,
      List.dropWhile_cons_of_neg (by simp [hkeeps c (.head _)])]
    split
    · exact ⟨[], b, rfl⟩
    · exact ⟨a.dropWhile drops, b, by simp⟩

/-- What holds none of the characters that are dropped stays in the text. -/
theorem infix_trimChars {needle s : List Char} (hkeeps : ∀ c ∈ needle, drops c = false) (h : needle <:+: s) :
    needle <:+: trimChars drops s := by
  have hreversed : needle.reverse <:+: (s.dropWhile drops).reverse.dropWhile drops :=
    infix_dropWhile (by simpa using hkeeps) (List.reverse_infix.mpr (infix_dropWhile hkeeps h))
  rwa [trimChars, ← List.reverse_infix, List.reverse_reverse]

end Trim

end LayerLint.Text
