import LayerLint.Text.Quoted
import LayerLint.Yaml.Printer.Style

/-!
# The text of scalars

A scalar in each style. Long lines of plain and quoted scalars break at a single space where the column is past
the width; in double quotes a backslash marks the break, and a block keeps its lines.
-/

namespace LayerLint.Yaml

/-- The column behind which lines break. -/
def lineWidth : Nat := 100

/-- That many spaces. -/
def spaces (n : Nat) : List Char := List.replicate n ' '

/-- How long lines of a scalar go on: the indentation, and whether they may break at all. -/
structure Folding where
  indent : Nat
  folds : Bool
deriving DecidableEq, Repr

/-- A line break and the indentation of the next line. -/
def Folding.newline (f : Folding) : List Char := '\n' :: spaces f.indent

/-- What was read of a gap between words. -/
inductive Gap where
  | none
  /-- That many spaces, perhaps at the beginning of the text. -/
  | spaces (count : Nat) (atStart : Bool)
  /-- Ends of lines, which are already written. -/
  | breaks
deriving DecidableEq, Repr

/-- Writes a gap before the next word from a column on and gives the column behind it. A single space between
words breaks the line if the column is past the width. -/
def Gap.close (f : Folding) (column : Nat) : Gap → List Char × Nat
  | .none => ([], column)
  | .spaces count atStart =>
    if count = 1 && !atStart && lineWidth < column && f.folds then (f.newline, f.indent)
    else (LayerLint.Yaml.spaces count, column + count)
  | .breaks => (LayerLint.Yaml.spaces f.indent, f.indent)

/-- Writes the gap at the end of a text. -/
def Gap.finish (f : Folding) : Gap → List Char
  | .none => []
  | .spaces count _ => LayerLint.Yaml.spaces count
  | .breaks => LayerLint.Yaml.spaces f.indent

/-- Plain or singly quoted text from a column on, where each single quote is written as `quote`. Of neighbouring
ends of lines the first counts twice if it is a line feed, for a single one would read as a space. -/
def foldedFrom (f : Folding) (quote : List Char) (column : Nat) (gap : Gap) (first : Bool) : List Char → List Char
  | [] => gap.finish f
  | c :: r =>
    if c = ' ' then
      match gap with
      | .spaces count atStart => foldedFrom f quote column (.spaces (count + 1) atStart) false r
      | gap =>
        let (lead, column) := gap.close f column
        lead ++ foldedFrom f quote column (.spaces 1 first) false r
    else if isBreak c then
      if gap = .breaks then c :: foldedFrom f quote column gap false r
      else
        let (lead, column) := gap.close f column
        lead ++ (if c = '\n' then [c, c] else [c]) ++ foldedFrom f quote column .breaks false r
    else
      let (lead, column) := gap.close f column
      let shown := if c = '\'' then quote else [c]
      lead ++ shown ++ foldedFrom f quote (column + shown.length) .none false r

/-- Plain text from a column on. -/
def plainText (f : Folding) (column : Nat) (s : List Char) : List Char := foldedFrom f ['\''] column .none true s

/-- Text in single quotes from a column on. -/
def singleQuoted (f : Folding) (column : Nat) (s : List Char) : List Char :=
  '\'' :: foldedFrom f ['\'', '\''] (column + 1) .none true s ++ ['\'']

/-! ## Double quotes -/

/-- The characters with an escape of one letter. -/
def shortEscapes : List (Char × Char) :=
  [('\x00', '0'), ('\x07', 'a'), ('\x08', 'b'), ('\t', 't'), ('\n', 'n'), ('\x0b', 'v'), ('\x0c', 'f'), ('\r', 'r'),
    ('\x1b', 'e'), ('"', '"'), ('\\', '\\'), ('\u0085', 'N'), ('\u00a0', '_'), ('\u2028', 'L'), ('\u2029', 'P')]

/-- The character stands in double quotes as it is. -/
def isVerbatim (c : Char) : Bool :=
  !(['"', '\\', '\u0085', '\u2028', '\u2029', '\ufeff'].contains c) &&
    ((' ' ≤ c && c ≤ '~') || ('\u00a0' ≤ c && c.toNat ≤ 0xFFFD))

/-- A number in that many hexadecimal digits, with capital letters. -/
def capitalHex (width n : Nat) : List Char := (Text.hexDigits width n).map Char.toUpper

/-- The escape of a character. -/
def escaped (c : Char) : List Char :=
  match shortEscapes.lookup c with
  | some letter => ['\\', letter]
  | none =>
    if c.toNat ≤ 0xFF then '\\' :: 'x' :: capitalHex 2 c.toNat
    else if c.toNat ≤ 0xFFFF then '\\' :: 'u' :: capitalHex 4 c.toNat
    else '\\' :: 'U' :: capitalHex 8 c.toNat

/-- The break of a line in double quotes: a backslash keeps the space before the next character. -/
def quotedBreak (f : Folding) (next : Option Char) : List Char :=
  '\\' :: f.newline ++ (if next = some ' ' then ['\\'] else [])

/-- The column behind the break of a line. -/
def columnAfterBreak (f : Folding) (next : Option Char) : Nat := f.indent + (if next = some ' ' then 1 else 0)

/-- The inside of double quotes from a column on. A line may break past the width at a space, behind an escape or
before the first character after one, but neither before the second character nor before the last one.
`fresh` says that an escape or a break stands before, `first` that nothing does. -/
def doubleFrom (f : Folding) (column : Nat) (fresh first : Bool) : List Char → List Char
  | [] => []
  | c :: r =>
    let mayBreak := f.folds && !first && !r.isEmpty
    if isVerbatim c then
      if mayBreak && (c = ' ' || fresh) && lineWidth < column then
        quotedBreak f (some c) ++ c :: doubleFrom f (columnAfterBreak f (some c) + 1) false false r
      else c :: doubleFrom f (column + 1) false false r
    else
      let shown := escaped c
      let column := column + shown.length
      if mayBreak && lineWidth + 1 < column then
        shown ++ quotedBreak f r.head? ++ doubleFrom f (columnAfterBreak f r.head?) true false r
      else shown ++ doubleFrom f column true false r

/-- Text in double quotes from a column on. -/
def doubleQuoted (f : Folding) (column : Nat) (s : List Char) : List Char :=
  '"' :: doubleFrom f (column + 1) false true s ++ ['"']

/-! ## Blocks -/

/-- What stands behind the bar of a block: the indentation where the text does not show it, and how the text ends
if not in one end of line. -/
def blockHints (s : List Char) : List Char :=
  let loose := fun (c : Char) => c == ' ' || isBreak c
  let ending :=
    match s.reverse with
    | c :: rest => if !isBreak c then ['-'] else if rest.isEmpty || rest.head?.any isBreak then ['+'] else []
    | [] => []
  (if s.head?.any loose then ['2'] else []) ++ ending

/-- The lines of a block, each with its indentation unless it is empty. -/
def blockLines (indent : Nat) (atStart : Bool) : List Char → List Char
  | [] => if atStart then [] else ['\n']
  | c :: r =>
    if isBreak c then c :: blockLines indent true r
    else (if atStart then spaces indent else []) ++ c :: blockLines indent false r

/-- Text as a block, up to and with the end of its last line. -/
def blockText (indent : Nat) (s : List Char) : List Char :=
  '|' :: blockHints s ++ '\n' :: blockLines indent true s

end LayerLint.Yaml
