import LayerLint.Binary64.Basic
import LayerLint.Text.Blank
import LayerLint.Text.Search
import LayerLint.Text.Width

/-!
# Tables

A table has a title, a line of headings and rows of cells, each cell with a space on both sides. On a screen that is
too narrow the widest columns give way, and their cells break into lines between words; a word that is too long
ends in an ellipsis.
-/

namespace LayerLint.Report

open Text

/-- A column of a table. -/
structure Column where
  heading : String
  /-- The cells stand at the right. -/
  atRight : Bool
deriving DecidableEq, Repr

/-- A table; every row has a cell for each column. -/
structure Table where
  title : String
  columns : List Column
  rows : List (List String)
deriving DecidableEq, Repr

namespace Table

/-- The number of columns of the screen. -/
def screenWidth : Nat := 80

/-! ## Lines of a cell -/

/-- The words of a text with the blanks behind them; blanks at the beginning belong to the first. -/
def wordsFrom (current : List Char) (ended : Bool) : List Char → List (List Char)
  | [] => if current.isEmpty then [] else [current]
  | c :: r =>
    if isBlank c then wordsFrom (current ++ [c]) (current.any (!isBlank ·)) r
    else if ended then current :: wordsFrom [c] false r
    else wordsFrom (current ++ [c]) false r

/-- The text without blanks at its end. -/
def trimEnd (s : List Char) : List Char := (s.reverse.dropWhile isBlank).reverse

/-- Puts words into lines of a width. A word that is too long has a line of its own. -/
def fill (columns used : Nat) (line : List Char) : List (List Char) → List (List Char)
  | [] => [line]
  | word :: rest =>
    if used + width (trimEnd word) ≤ columns then fill columns (used + width word) (line ++ word) rest
    else if used = 0 then fill columns (width word) (line ++ word) rest
    else line :: fill columns (width word) word rest

/-- The text in a number of columns, with an ellipsis where it is too long. -/
def cut (columns : Nat) (s : List Char) : List Char :=
  if columns < width s then crop (columns - 1) s ++ ['…'] else s

/-- A line of a cell, with spaces up to its width. -/
def align (column : Column) (columns : Nat) (line : List Char) : List Char :=
  let spaces := fun (s : List Char) => List.replicate (columns - width s) ' '
  if column.atRight then
    let shown := cut columns (trimEnd line)
    spaces shown ++ shown
  else
    let shown := cut columns (if columns < width line then trimEnd line else line)
    shown ++ spaces shown

/-- The lines of a cell in a column of a width. -/
def cellLines (column : Column) (columns : Nat) (cell : String) : List (List Char) :=
  let lines := (splitAt '\n' cell.toList).flatMap fun line => fill columns 0 [] (wordsFrom [] false line)
  lines.map (align column columns)

/-! ## Widths -/

/-- The width of the widest cell of a column, with its spaces. -/
def naturalWidth (table : Table) (index : Nat) (column : Column) : Nat :=
  let cells := column.heading :: table.rows.map (·.getD index "")
  (cells.map fun cell => ((splitAt '\n' cell.toList).map width).foldl max 0).foldl max 0 + 2

/-- Takes a width away from columns, the same from each that gives, at most `most` from one. -/
def takeAway (total most : Nat) : List (Nat × Bool) → List Nat
  | [] => []
  | (w, gives) :: rest =>
    let givers := (rest.filter (·.2)).length + 1
    if gives && most != 0 then
      let share := min most (Binary64.roundQuotient total givers)
      (w - share) :: takeAway (total - share) most rest
    else w :: takeAway total most rest

/-- Narrows the widest columns to the next in width until all fit. Every round but the last makes more columns the
widest, so their number bounds the rounds. -/
def narrow (limit : Nat) : Nat → List Nat → List Nat
  | 0, widths => widths
  | rounds + 1, widths =>
    if widths.foldr (· + ·) 0 ≤ limit then widths
    else
      let widest := widths.foldl max 0
      let second := (widths.map fun w => if w = widest then 0 else w).foldl max 0
      if widest = second then widths
      else
        let excess := widths.foldr (· + ·) 0 - limit
        narrow limit rounds
          (takeAway excess (min excess (widest - second)) (widths.map fun w => (w, w == widest)))

/-- The widths of the columns on the screen. -/
def widths (table : Table) : List Nat :=
  let natural := table.columns.zipIdx.map fun (column, index) => table.naturalWidth index column
  narrow screenWidth (2 * natural.length + 2) natural

/-! ## Lines of the table -/

/-- The lines of a row; shorter cells are filled up with empty lines. -/
def rowLines (columns : List (Column × Nat)) (row : List String) : List (List Char) :=
  let cells := columns.zipIdx.map fun ((column, w), index) => (w, cellLines column (w - 2) (row.getD index ""))
  let height := (cells.map fun cell => cell.2.length).foldl max 0
  (List.range height).map fun i =>
    cells.flatMap fun (w, lines) => ' ' :: lines.getD i (List.replicate (w - 2) ' ') ++ [' ']

/-- The title in the middle of a width. -/
def titleLine (total : Nat) (title : String) : List Char :=
  let shown := cut total title.toList
  let before := (total - width shown) / 2
  List.replicate before ' ' ++ shown ++ List.replicate (total - before - width shown) ' '

/-- The text of a table, every line with its end. -/
def toText (table : Table) : String :=
  let widths := table.widths
  let columns := table.columns.zip widths
  let rows := (table.columns.map (·.heading)) :: table.rows
  String.ofList
    ((titleLine (widths.foldr (· + ·) 0) table.title :: rows.flatMap (rowLines columns)).flatMap (· ++ ['\n']))

end Table

end LayerLint.Report
