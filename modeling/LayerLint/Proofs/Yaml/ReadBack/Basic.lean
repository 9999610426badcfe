import Mathlib.Data.Bool.AllAny
import LayerLint.Yaml.Printer.Scalar

/-!
# Characters of printed documents

Facts about single characters, their neighbours and runs of spaces, on which the proofs that scalars read back rest,
and the form of what follows a scalar (`Resumes`).
-/

namespace LayerLint.Yaml

/-! ## Characters and their neighbours -/

theorem isSeparator_of_isBreak {c : Char} (h : isBreak c) : isSeparator c := by simp [isSeparator, h]

theorem isBreak_space : isBreak ' ' = false := by decide

theorem isSeparator_space : isSeparator ' ' = true := by decide

/-- Of the separators only spaces and ends of lines may stand outside of double quotes. -/
theorem eq_space_of_isOrdinary {c : Char} (hc : isOrdinary c) (hb : isBreak c = false) (hs : isSeparator c) :
    c = ' ' := by
  simp only [isSeparator, hb, Bool.false_or, List.mem_cons, List.not_mem_nil, or_false, decide_eq_true_eq] at hs
  obtain rfl | rfl | rfl | rfl := hs
  · exact absurd hc (by decide)
  · rfl
  · exact absurd hc (by decide)
  · exact absurd hc (by decide)

theorem hasNeighbours_cons {p q : Char → Bool} {c : Char} {s : List Char} :
    hasNeighbours p q (c :: s) = ((p c && s.head?.any q) || hasNeighbours p q s) := by
  cases s <;> simp [hasNeighbours]

theorem hasLooseColon_cons {c : Char} {s : List Char} :
    hasLooseColon (c :: s) = ((c == ':' && separatorAhead s) || hasLooseColon s) := by
  cases s <;> simp [hasLooseColon, separatorAhead]

theorem hasNeighbours_of_append {p q : Char → Bool} {a s : List Char} (h : hasNeighbours p q (a ++ s) = false) :
    hasNeighbours p q s = false := by
  induction a with
  | nil => exact h
  | cons c a ih =>
    rw [List.cons_append, hasNeighbours_cons, Bool.or_eq_false_iff] at h
    exact ih h.2

/-! ## Spaces -/

@[simp]
theorem length_spaces (n : Nat) : (spaces n).length = n := by simp [spaces]

theorem spaces_succ (n : Nat) : spaces (n + 1) = ' ' :: spaces n := rfl

theorem spaces_append_space (n : Nat) (s : List Char) : spaces n ++ ' ' :: s = spaces (n + 1) ++ s := by
  simp [spaces, List.replicate_succ']

theorem boundaryAhead_spaces {n : Nat} (h : n ≠ 0) (s : List Char) : boundaryAhead (spaces n ++ s) = false := by
  obtain ⟨m, rfl⟩ := Nat.exists_eq_succ_of_ne_zero h
  rw [spaces_succ]
  simp [boundaryAhead]

/-! ## What follows a scalar -/

/-- A text goes on with some line feeds, an indentation below a limit and then a character that is no blank, unless
it ends. -/
def Resumes (limit feeds : Nat) (rest : List Char) : Prop :=
  ∃ n r, rest = List.replicate feeds '\n' ++ (spaces n ++ r) ∧ n < limit ∧ ∀ c ∈ r.head?, c ≠ ' ' ∧ isBreak c = false

theorem Resumes.mono {limit limit' feeds : Nat} {rest : List Char} (h : Resumes limit feeds rest)
    (hle : limit ≤ limit') :
    Resumes limit' feeds rest := by
  obtain ⟨n, r, hrest, hn, hr⟩ := h
  exact ⟨n, r, hrest, by omega, hr⟩

/-- The blanks at the beginning of a text that a reader takes away. -/
def TakesBlanks (n : Nat) (s : List Char) : Prop :=
  ∃ blanks r, s = blanks ++ r ∧ blanks.length = n ∧ ∀ c ∈ blanks, c = ' ' ∨ c = '\n'

theorem TakesBlanks.feed {n : Nat} {s : List Char} (h : TakesBlanks n s) : TakesBlanks (n + 1) ('\n' :: s) := by
  obtain ⟨blanks, r, rfl, hlength, hblanks⟩ := h
  exact ⟨'\n' :: blanks, r, rfl, by simp [hlength], by simpa using hblanks⟩

theorem TakesBlanks.zero (s : List Char) : TakesBlanks 0 s := ⟨[], s, rfl, rfl, by simp⟩

end LayerLint.Yaml
