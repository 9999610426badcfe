import LayerLint.Yaml.Character
import LayerLint.Yaml.Error

/-!
# Reading scalars in blocks

A block begins behind a bar, which keeps its lines, or behind an angle, which joins them. Signs behind it say how
many columns the lines are indented and what becomes of the ends of lines at its end.
-/

namespace LayerLint.Yaml

/-- What becomes of the ends of lines at the end of a block: none is kept, one, or all. -/
inductive Chomping where
  | strip
  | clip
  | keep
deriving DecidableEq, Repr

/-- The signs at the head of a block. -/
structure BlockHeader where
  chomping : Chomping
  /-- The indentation beyond that of the block around. -/
  increment : Option Nat
deriving DecidableEq, Repr

/-- The sign for what becomes of the end. -/
def chompingSign? : List Char → Option (Chomping × List Char)
  | '+' :: r => some (.keep, r)
  | '-' :: r => some (.strip, r)
  | _ => none

/-- The digit for the indentation, which is not zero. -/
def incrementSign? : List Char → Option (Nat × List Char)
  | c :: r => if c.isDigit then some (c.toNat - '0'.toNat, r) else none
  | [] => none

/-- Reads the signs, in either order, and the rest of the text. -/
def anySigns (s : List Char) : BlockHeader × List Char :=
  match chompingSign? s, incrementSign? s with
  | some (chomping, r), _ =>
    match incrementSign? r with
    | some (n, r) => (⟨chomping, some n⟩, r)
    | none => (⟨chomping, none⟩, r)
  | none, some (n, r) =>
    match chompingSign? r with
    | some (chomping, r) => (⟨chomping, some n⟩, r)
    | none => (⟨.clip, some n⟩, r)
  | none, none => (⟨.clip, none⟩, s)

/-- Reads the signs and the rest of the text, which begins with a space or the end of the line. -/
def blockSigns (s : List Char) : Except ReadError (BlockHeader × List Char) :=
  let (header, rest) := anySigns s
  if header.increment ≠ some 0 ∧ (rest.head? = some ' ' ∨ breakAhead rest) then .ok (header, rest)
  else .error .malformed

/-- The rest of a line that holds nothing but blanks and a comment, with its end. -/
def emptyLine? (s : List Char) : Option (List Char) :=
  let s := s.dropWhile (· == ' ')
  let s := if s.head? = some '#' then s.dropWhile (!isBreak ·) else s
  match s with
  | [] => some []
  | c :: r => if isBreak c then some r else none

/-- The spaces and empty lines before the first line of a block: its ends of lines, the widest line, the column of
the last line and the number of characters. -/
def leadingLines (column widest : Nat) : List Char → List Char × Nat × Nat × Nat
  | [] => ([], widest, column, 0)
  | c :: r =>
    if c = ' ' then
      let (breaks, wide, last, n) := leadingLines (column + 1) (max widest (column + 1)) r
      (breaks, wide, last, n + 1)
    else if isBreak c then
      let (breaks, wide, last, n) := leadingLines 0 widest r
      (breakText c :: breaks, wide, last, n + 1)
    else ([], widest, column, 0)

/-- How the lines of a block are read. -/
structure BlockLayout where
  indent : Nat
  /-- Single ends of lines read as spaces. -/
  folded : Bool
  chomping : Chomping
deriving DecidableEq, Repr

/-- What was read before a line of a block. -/
structure BlockGap where
  column : Nat
  /-- The ends of empty lines. -/
  breaks : List Char
  /-- The end of the last line that is not empty, and whether it began with neither space nor tab. -/
  last : Option (Char × Bool)
deriving DecidableEq, Repr

/-- The character is a space or tab. -/
def isTabOrSpace (c : Char) : Bool := c == ' ' || c == '\t'

/-- The ends of lines before a line that begins with a character. -/
def BlockGap.text (gap : BlockGap) (layout : BlockLayout) (c : Char) : List Char :=
  (match gap.last with
    | none => []
    | some (ending, flush) =>
      if layout.folded && ending == '\n' && flush && !isTabOrSpace c then (if gap.breaks.isEmpty then [' '] else [])
      else [ending]) ++
    gap.breaks

/-- The ends of lines at the end of a block. -/
def BlockGap.ending (gap : BlockGap) (chomping : Chomping) : List Char :=
  let last := gap.last.toList.map (·.1)
  match chomping with
  | .strip => []
  | .clip => last
  | .keep => last ++ gap.breaks

/-- Puts characters before the rest of a block. -/
def addLine (text : List Char) (rest : List Char × Nat) : List Char × Nat := (text ++ rest.1, rest.2 + 1)

/-- The text of a block and the number of its characters. Inside of a line `flush` says whether this began with
neither space nor tab; between lines there is a gap. -/
def blockFrom (layout : BlockLayout) : Bool ⊕ BlockGap → List Char → List Char × Nat
  | .inl _, [] => ([], 0)
  | .inl flush, c :: r =>
    if isBreak c then addLine [] (blockFrom layout (.inr ⟨0, [], some (breakText c, flush)⟩) r)
    else addLine [c] (blockFrom layout (.inl flush) r)
  | .inr gap, [] => (gap.ending layout.chomping, 0)
  | .inr gap, c :: r =>
    if c = ' ' ∧ gap.column < layout.indent then
      addLine [] (blockFrom layout (.inr { gap with column := gap.column + 1 }) r)
    else if isBreak c then
      addLine [] (blockFrom layout (.inr { gap with column := 0, breaks := gap.breaks ++ [breakText c] }) r)
    else if gap.column = layout.indent then
      addLine (gap.text layout c ++ [c]) (blockFrom layout (.inl (!isTabOrSpace c)) r)
    else (gap.ending layout.chomping, 0)

/-- The text of a block from behind its bar or angle, and the number of its characters. The lines are indented by
`least` columns or more. -/
def blockScalar (folded : Bool) (least : Nat) (s : List Char) : Except ReadError (List Char × Nat) := do
  let (header, rest) ← blockSigns s
  match emptyLine? rest with
  | none => throw .malformed
  | some body =>
    let before := s.length - body.length
    let (text, n) :=
      match header.increment with
      | some n => blockFrom ⟨least + n - 1, folded, header.chomping⟩ (.inr ⟨0, [], none⟩) body
      | none =>
        let (breaks, widest, column, n) := leadingLines 0 0 body
        let (text, m) :=
          blockFrom ⟨max least widest, folded, header.chomping⟩ (.inr ⟨column, breaks, none⟩) (body.drop n)
        (text, n + m)
    return (text, before + n)

end LayerLint.Yaml
