import LayerLint.Yaml.Character
import LayerLint.Yaml.Tag

/-!
# Styles of scalars

A text can be written plain, in single or double quotes or as a block of lines. `choose` takes the plainest
style that reads back as the text: plain where nothing in the text has a meaning of its own, a block for several
lines, and double quotes, in which everything can be escaped, where nothing else is possible.
-/

namespace LayerLint.Yaml

/-- The ways to write a scalar. -/
inductive Style where
  | plain
  | single
  | double
  | block
deriving DecidableEq, Repr

/-- The character may stand in a document as it is, outside of double quotes. -/
def isOrdinary (c : Char) : Bool :=
  c = '\n' || c = '\u0085' || (' ' ≤ c && c ≤ '~') ||
    ('\u00a0' ≤ c && c != '\ufeff' && c != '\ufffe' && c != '\uffff' && c.toNat < 0x10FFFF)

/-- Characters that have a meaning at the beginning of a plain scalar. -/
def leadIndicators : List Char := "#,[]\x7b\x7d&*!|>'\"%@\x60".toList

/-- Two neighbours satisfy one condition each. -/
def hasNeighbours (p q : Char → Bool) : List Char → Bool
  | a :: b :: r => (p a && q b) || hasNeighbours p q (b :: r)
  | _ => false

/-- A colon stands before a separator or at the end. -/
def hasLooseColon : List Char → Bool
  | [] => false
  | [c] => c == ':'
  | c :: d :: r => (c == ':' && isSeparator d) || hasLooseColon (d :: r)

/-- The beginning of a text would not read back as plain text. -/
def hasIndicatorAtStart : List Char → Bool
  | '-' :: '-' :: '-' :: _ | '.' :: '.' :: '.' :: _ => true
  | c :: r =>
    leadIndicators.contains c || (['?', ':', '-'].contains c && (r.isEmpty || isSeparator (r.headD ' ')))
  | [] => false

/-- Some part of a text has a meaning of its own in a plain scalar. -/
def hasIndicator (s : List Char) : Bool :=
  hasIndicatorAtStart s || hasLooseColon s || hasNeighbours isSeparator (· == '#') s

/-- The text has several lines or an end of line. -/
def isMultiline (s : List Char) : Bool := s.any isBreak

/-- The first or last character is a space or ends a line. -/
def hasLooseEnd (s : List Char) : Bool :=
  let loose := fun (c : Char) => c == ' ' || isBreak c
  s.head?.any loose || s.getLast?.any loose

/-- A space stands at the end of a line of the text, or a character that is not ordinary is in it. Only double
quotes keep such a text. -/
def needsEscapes (s : List Char) : Bool := hasNeighbours (· == ' ') isBreak s || s.any (!isOrdinary ·)

/-- The text can be written plain. -/
def allowsPlain (s : List Char) : Bool := !hasLooseEnd s && !isMultiline s && !needsEscapes s && !hasIndicator s

/-- The text can be written in single quotes: no line begins with a space. -/
def allowsSingle (s : List Char) : Bool := !needsEscapes s && !hasNeighbours isBreak (· == ' ') s

/-- The text can be written as a block. -/
def allowsBlock (s : List Char) : Bool := !s.isEmpty && s.getLast? != some ' ' && !needsEscapes s

/-- A scalar is written as a block, if that is possible, where it is a text of several lines or bytes. -/
def prefersBlock (tag : Tag) (s : List Char) : Bool := tag == .binary || (tag == .text && s.contains '\n')

/-- The style of a scalar with a tag. The key of an entry has to stand on one line. -/
def Style.choose (tag : Tag) (s : List Char) (onOneLine : Bool) : Style :=
  let fits := !(onOneLine && isMultiline s)
  if prefersBlock tag s then
    if !onOneLine && allowsBlock s then .block else .double
  else if Tag.ofPlain s == tag && allowsPlain s && !(onOneLine && s.isEmpty) then .plain
  else if allowsSingle s && fits then .single
  else .double

/-- The scalar is written without its tag: the form of plain text says it, and other text needs none. -/
def hidesTag (tag : Tag) (s : List Char) (style : Style) : Bool :=
  if style = .plain then Tag.ofPlain s == tag else tag == .text

end LayerLint.Yaml
