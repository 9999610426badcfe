/-!
# Blank characters

The characters that count as white space, in ASCII and beyond, and the text without them at its ends.
-/

namespace LayerLint.Text

/-- The ranges of white space: control characters, separators and the spaces of Unicode. -/
def blankRanges : List (Nat × Nat) :=
  [(0x09, 0x0D), (0x1C, 0x20), (0x85, 0x85), (0xA0, 0xA0), (0x1680, 0x1680), (0x2000, 0x200A), (0x2028, 0x2029),
    (0x202F, 0x202F), (0x205F, 0x205F), (0x3000, 0x3000)]

/-- The character is white space. -/
def isBlank (c : Char) : Bool := blankRanges.any fun (low, high) => decide (low ≤ c.toNat ∧ c.toNat ≤ high)

/-- The characters without those at both ends that satisfy a condition. -/
def trimChars (drops : Char → Bool) (s : List Char) : List Char :=
  ((s.dropWhile drops).reverse.dropWhile drops).reverse

/-- The text without the white space at both ends. -/
def trim (s : List Char) : List Char := trimChars isBlank s

theorem isBlank_of_isWhitespace {c : Char} (h : c.isWhitespace) : isBlank c := by
  simp only [Char.isWhitespace, Bool.or_eq_true, decide_eq_true_eq] at h
  rcases h with ((h | h) | h) | h <;> subst h <;> decide

end LayerLint.Text
