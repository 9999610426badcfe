/-!
# Lines

A line ends at a line feed, a carriage return, both together, or one of the other separators of Unicode and
ASCII. An end of line at the end of the text begins no further line.
-/

namespace LayerLint.Text

/-- The character ends a line. -/
def isLineBreak (c : Char) : Bool :=
  c ∈ ['\n', '\r', '\x0b', '\x0c', '\x1c', '\x1d', '\x1e', '\u0085', '\u2028', '\u2029']

/-- The lines of a text, without their ends. -/
def lines : List Char → List (List Char)
  | [] => []
  | '\r' :: '\n' :: r => [] :: lines r
  | c :: r =>
    if isLineBreak c then [] :: lines r
    else
      match lines r with
      | [] => [[c]]
      | line :: rest => (c :: line) :: rest

/-- The first line of a text, empty if there is none. -/
def firstLine (s : String) : String := String.ofList ((lines s.toList).headD [])

/-- The text with each of the three ends of line `\r\n`, `\r` and `\n` written `\n`. -/
def unifyNewlines : List Char → List Char
  | [] => []
  | '\r' :: '\n' :: r => '\n' :: unifyNewlines r
  | c :: r => (if c = '\r' then '\n' else c) :: unifyNewlines r

end LayerLint.Text
