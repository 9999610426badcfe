/-!
# Glob patterns

A star stands for any text, a question mark for one character and a bracket expression for one character of a
set (`Element`). `parse` reads a pattern, `accepts` decides whether it matches a whole text.

In a bracket expression a leading `!` takes the complement and a leading `]` is an ordinary character. A bracket
that is never closed is an ordinary character too. A range whose ends are in the wrong order is left out; if
nothing remains, no character is in the set.
-/

namespace LayerLint.Glob

/-- A set of characters: single ones and ranges, perhaps complemented. -/
structure CharSet where
  complemented : Bool
  singles : List Char
  ranges : List (Char × Char)
deriving DecidableEq, Repr

/-- The character belongs to the set. -/
def CharSet.contains (set : CharSet) (c : Char) : Bool :=
  (set.singles.contains c || set.ranges.any fun (low, high) => decide (low ≤ c ∧ c ≤ high)) != set.complemented

/-- A part of a pattern. -/
inductive Element where
  | anyText
  | oneOf (set : CharSet)
deriving DecidableEq, Repr

/-- Every character. -/
def anyChar : CharSet := ⟨true, [], []⟩

/-- One given character. -/
def exactly (c : Char) : CharSet := ⟨false, [c], []⟩

/-- Cuts the inside of a bracket expression at the hyphens that stand for a range. The first `skip` characters
are no such hyphens, nor are the two after one. A hyphen at the end is an ordinary character. -/
def cutRanges : Nat → List Char → List Char → List (List Char)
  | _, piece, [] => [piece]
  | skip + 1, piece, c :: r => cutRanges skip (piece ++ [c]) r
  | 0, piece, c :: r =>
    if c = '-' then
      if r.isEmpty then [piece ++ ['-']] else piece :: cutRanges 2 [] r
    else cutRanges 0 (piece ++ [c]) r

/-- Puts a piece before others, without the range between them if its ends are in the wrong order. -/
def joinRange (piece : List Char) : List (List Char) → List (List Char)
  | [] => [piece]
  | next :: rest =>
    match piece.getLast?, next with
    | some low, high :: more => if high < low then (piece.dropLast ++ more) :: rest else piece :: next :: rest
    | _, _ => piece :: next :: rest

/-- The ranges between neighbouring pieces. -/
def rangesBetween : List (List Char) → List (Char × Char)
  | piece :: next :: rest =>
    match piece.getLast?, next.head? with
    | some low, some high => (low, high) :: rangesBetween (next :: rest)
    | _, _ => rangesBetween (next :: rest)
  | _ => []

/-- The set of a bracket expression, from what stands between the brackets. -/
def charSet (inside : List Char) : CharSet :=
  let pieces := (cutRanges (if inside.head? = some '!' then 2 else 1) [] inside).foldr joinRange []
  match pieces with
  | ('!' :: []) :: next :: rest => ⟨true, '-' :: (next :: rest).flatten, rangesBetween (next :: rest)⟩
  | ('!' :: piece) :: rest => ⟨true, (piece :: rest).flatten, rangesBetween (piece :: rest)⟩
  | pieces => ⟨false, pieces.flatten, rangesBetween pieces⟩

/-- What stands between the brackets, given the text after the opening one, if there is a closing one. -/
def bracketInside? (cs : List Char) : Option (List Char) :=
  let (lead, cs) := match cs with
    | '!' :: r => (['!'], r)
    | _ => ([], cs)
  let (lead, cs) := match cs with
    | ']' :: r => (lead ++ [']'], r)
    | _ => (lead, cs)
  if cs.contains ']' then some (lead ++ cs.takeWhile (· != ']')) else none

/-- The elements of a pattern whose first `skip` characters are already read. -/
def parseFrom : Nat → List Char → List Element
  | _, [] => []
  | skip + 1, _ :: r => parseFrom skip r
  | 0, c :: r =>
    if c = '*' then .anyText :: parseFrom 0 r
    else if c = '?' then .oneOf anyChar :: parseFrom 0 r
    else if c = '[' then
      match bracketInside? r with
      | some inside => .oneOf (charSet inside) :: parseFrom (inside.length + 1) r
      | none => .oneOf (exactly c) :: parseFrom 0 r
    else .oneOf (exactly c) :: parseFrom 0 r

/-- The elements of a pattern. -/
def parse (pattern : List Char) : List Element := parseFrom 0 pattern

/-- The elements match the whole text. -/
def accepts : List Element → List Char → Bool
  | [], s => s.isEmpty
  | .oneOf set :: rest, s =>
    match s with
    | [] => false
    | c :: r => set.contains c && accepts rest r
  | .anyText :: rest, s =>
    accepts rest s ||
      match s with
      | [] => false
      | _ :: r => accepts (.anyText :: rest) r
termination_by elements s => elements.length + s.length

/-- The pattern matches the whole text. -/
def matchesText (pattern text : String) : Bool := accepts (parse pattern.toList) text.toList

end LayerLint.Glob
