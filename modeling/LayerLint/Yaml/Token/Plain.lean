import LayerLint.Yaml.Character

/-!
# Reading plain scalars

A plain scalar ends before a sign that has a meaning of its own, before a comment, and before a line that is not
indented enough. Ends of lines inside of it read as in quotes.
-/

namespace LayerLint.Yaml

/-- What was read of a gap between two words of a plain scalar. -/
inductive PlainGap where
  | none
  | spaces (count : Nat)
  /-- Ends of lines, the first apart, and the column on the last line. -/
  | lines (first : Char) (more : List Char) (column : Nat)
deriving DecidableEq, Repr

namespace PlainGap

/-- The text that the gap stands for. -/
def text : PlainGap → List Char
  | .none => []
  | .spaces count => List.replicate count ' '
  | .lines first more _ => (if first ≠ '\n' then [first] else if more.isEmpty then [' '] else []) ++ more

/-- The gap ends a line. -/
def endsLine : PlainGap → Bool
  | .lines .. => true
  | _ => false

/-- A space more. -/
def addSpace : PlainGap → PlainGap
  | .none => .spaces 1
  | .spaces count => .spaces (count + 1)
  | .lines first more column => .lines first more (column + 1)

/-- An end of line more. -/
def addBreak (gap : PlainGap) (c : Char) : PlainGap :=
  match gap with
  | .lines first more _ => .lines first (more ++ [breakText c]) 0
  | _ => .lines (breakText c) [] 0

end PlainGap

/-- The characters that end a plain scalar inside of brackets. -/
def flowSigns : List Char := [',', '?', '[', ']', '\x7b', '\x7d']

/-- The characters before which a colon ends a word inside of brackets. -/
def afterColon : List Char := [',', '[', ']', '\x7b', '\x7d']

/-- A word of a plain scalar ends before the character. -/
def endsWord (inFlow : Bool) (c : Char) (r : List Char) : Bool :=
  isSeparator c || (inFlow && flowSigns.contains c) ||
    (c == ':' && (separatorAhead r || (inFlow && r.head?.any afterColon.contains)))

/-- A scalar that ends here, behind a gap. -/
def plainEnd (gap : PlainGap) : List Char × Nat × Bool := ([], 0, gap.endsLine)

/-- Puts characters before the rest of a scalar. -/
def addWord (text : List Char) (rest : List Char × Nat × Bool) : List Char × Nat × Bool :=
  (text ++ rest.1, rest.2.1 + 1, rest.2.2)

/-- The text of a plain scalar whose further lines are indented by `indent` columns; the number of its characters,
with the gap behind it; and whether this gap ends a line. -/
def plainFrom (inFlow : Bool) (indent : Nat) (gap : PlainGap) : List Char → List Char × Nat × Bool
  | [] => plainEnd gap
  | c :: r =>
    if c = ' ' then addWord [] (plainFrom inFlow indent gap.addSpace r)
    else if isBreak c then
      if boundaryAhead r then ([], 1, true) else addWord [] (plainFrom inFlow indent (gap.addBreak c) r)
    else
      let stops :=
        match gap with
        | .none => false
        | .spaces _ => c == '#'
        | .lines _ _ column => c == '#' || (!inFlow && decide (column < indent))
      if stops || endsWord inFlow c r then plainEnd gap
      else addWord (gap.text ++ [c]) (plainFrom inFlow indent .none r)

end LayerLint.Yaml
