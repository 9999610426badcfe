/-!
# Searching in text

Texts are searched by code points. `splitAt` cuts a text at every occurrence of a separator and `joinAt` puts
the pieces together again, so a text and its list of pieces determine each other (`joinAt_splitAt`).
-/

namespace LayerLint.Text

/-- The text begins with `lead`. -/
def startsWith (s lead : String) : Bool := lead.toList.isPrefixOf s.toList

/-- The text ends with `tail`. -/
def endsWith (s tail : String) : Bool := tail.toList.isSuffixOf s.toList

/-- The text without its first `n` code points. -/
def drop (s : String) (n : Nat) : String := String.ofList (s.toList.drop n)

/-- The text without its last `n` code points. -/
def dropEnd (s : String) (n : Nat) : String := String.ofList (s.toList.take (s.toList.length - n))

/-- `needle` stands somewhere in the characters. -/
def occursIn (needle : List Char) : List Char → Bool
  | [] => needle.isEmpty
  | c :: r => needle.isPrefixOf (c :: r) || occursIn needle r

/-- `needle` stands somewhere in the text. -/
def contains (s needle : String) : Bool := occursIn needle.toList s.toList

/-- The pieces between the separators, in order; there is one more piece than there are separators. -/
def splitAt (sep : Char) : List Char → List (List Char)
  | [] => [[]]
  | c :: r =>
    if c = sep then [] :: splitAt sep r
    else
      match splitAt sep r with
      | [] => [[c]]
      | piece :: rest => (c :: piece) :: rest

/-- The pieces with a separator between each two neighbours. -/
def joinAt (sep : Char) : List (List Char) → List Char
  | [] => []
  | [piece] => piece
  | piece :: next :: rest => piece ++ sep :: joinAt sep (next :: rest)

theorem splitAt_ne_nil (sep : Char) (s : List Char) : splitAt sep s ≠ [] := by
  cases s with
  | nil => simp [splitAt]
  | cons c r =>
    simp only [splitAt]
    split
    · simp
    · split <;> simp

theorem joinAt_splitAt (sep : Char) (s : List Char) : joinAt sep (splitAt sep s) = s := by
  induction s with
  | nil => rfl
  | cons c r ih =>
    simp only [splitAt]
    split
    · rename_i h
      cases hr : splitAt sep r with
      | nil => exact absurd hr (splitAt_ne_nil sep r)
      | cons piece rest => rw [hr] at ih; simp [joinAt, ih, h]
    · split
      · rename_i hr; exact absurd hr (splitAt_ne_nil sep r)
      · rename_i piece rest hr
        rw [hr] at ih
        cases rest <;> simp_all [joinAt]

/-- How often a character stands in the text. -/
def count (s : String) (c : Char) : Nat := s.toList.count c

/-- The texts in order with `sep` between each two neighbours. -/
def join (sep : String) (parts : List String) : String := sep.intercalate parts

/-- Sorted by code points. -/
def sort (parts : List String) : List String := parts.mergeSort (fun a b => decide (a ≤ b))

/-- Every text once, at the place of its first occurrence. -/
def distinct (parts : List String) : List String :=
  parts.foldl (fun seen part => if seen.contains part then seen else seen ++ [part]) []

end LayerLint.Text
