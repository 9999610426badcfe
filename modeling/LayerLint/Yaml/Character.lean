/-!
# Characters of documents

The characters that end lines and separate words, and those that a document may hold at all.
-/

namespace LayerLint.Yaml

/-- The character ends a line. -/
def isBreak (c : Char) : Bool := c ∈ ['\n', '\u0085', '\u2028', '\u2029']

/-- The character separates words for the signs that need a blank beside them. -/
def isSeparator (c : Char) : Bool := isBreak c || c ∈ ['\x00', ' ', '\t', '\r']

/-- A document may hold the character. -/
def isPrintable (c : Char) : Bool :=
  c == '\t' || c == '\n' || c == '\r' || (' ' ≤ c && c ≤ '~') || c == '\u0085' ||
    ('\u00a0' ≤ c && c != '\ufffe' && c != '\uffff')

/-- The end of line that a text keeps: the next-line character reads as a line feed. -/
def breakText (c : Char) : Char := if c = '\u0085' then '\n' else c

/-- A separator or the end of the text comes next. -/
def separatorAhead (s : List Char) : Bool := s.head?.all isSeparator

/-- The end of a line or of the text comes next. -/
def breakAhead (s : List Char) : Bool := s.head?.all isBreak

/-- A line that separates documents comes next: three hyphens or points and a separator. -/
def boundaryAhead : List Char → Bool
  | '-' :: '-' :: '-' :: r | '.' :: '.' :: '.' :: r => separatorAhead r
  | _ => false

/-- The character may stand in names. -/
def isNameChar (c : Char) : Bool := c.isAlphanum || c == '-' || c == '_'

end LayerLint.Yaml
