import LayerLint.Yaml.Character
import LayerLint.Yaml.Error
import LayerLint.Yaml.Tag

/-!
# Reading scalars between quotes

Ends of lines between quotes read as spaces, with blanks beside them dropped; of several ends all but the first
are kept. Single quotes are doubled inside of single quotes, and double quotes have escapes.
-/

namespace LayerLint.Yaml

/-- What was read of blanks and ends of lines between two characters of a quoted scalar. -/
inductive QuotedGap where
  | none
  | blanks (text : List Char)
  /-- Ends of lines, the first apart. -/
  | lines (first : Char) (more : List Char)
  /-- Ends of lines behind one that a backslash takes away. -/
  | escaped (more : List Char)
deriving DecidableEq, Repr

namespace QuotedGap

/-- A blank more. -/
def addBlank (gap : QuotedGap) (c : Char) : QuotedGap :=
  match gap with
  | .none => .blanks [c]
  | .blanks text => .blanks (text ++ [c])
  | gap => gap

/-- An end of line more. -/
def addBreak (gap : QuotedGap) (c : Char) : QuotedGap :=
  match gap with
  | .none | .blanks _ => .lines (breakText c) []
  | .lines first more => .lines first (more ++ [breakText c])
  | .escaped more => .escaped (more ++ [breakText c])

/-- The text that the gap stands for. -/
def text : QuotedGap → List Char
  | .none => []
  | .blanks text => text
  | .lines first more => (if first ≠ '\n' then [first] else if more.isEmpty then [' '] else []) ++ more
  | .escaped more => more

end QuotedGap

/-- The characters that stand behind a backslash for another. -/
def letterEscapes : List (Char × Char) :=
  [('0', '\x00'), ('a', '\x07'), ('b', '\x08'), ('t', '\t'), ('\t', '\t'), ('n', '\n'), ('v', '\x0b'), ('f', '\x0c'),
    ('r', '\r'), ('e', '\x1b'), (' ', ' '), ('"', '"'), ('\\', '\\'), ('/', '/'), ('N', '\u0085'), ('_', '\u00a0'),
    ('L', '\u2028'), ('P', '\u2029')]

/-- The number of hexadecimal digits behind a backslash and a letter. -/
def codeLengths : List (Char × Nat) := [('x', 2), ('u', 4), ('U', 8)]

/-- The number that hexadecimal digits stand for. -/
def hexValue (digits : List Char) : Nat :=
  digits.foldl (fun n c =>
    16 * n + (if c.isDigit then c.toNat - '0'.toNat else c.toLower.toNat - 'a'.toNat + 10)) 0

/-- The character of a code point. -/
def charOfCode (code : Nat) : Except ReadError Char :=
  if 0x7FFFFFFF < code then .error .hugeCode
  else if 0x10FFFF < code then .error .invalidCode
  else .ok (if code.isValidChar then Char.ofNat code else '\ufffd')

/-- What stands behind a backslash: a character and the number of characters that write it. -/
def escapeAt (c : Char) (r : List Char) : Except ReadError (Char × Nat) :=
  match letterEscapes.lookup c, codeLengths.lookup c with
  | some found, _ => .ok (found, 1)
  | none, some n =>
    let digits := r.take n
    if digits.length = n ∧ digits.all Text.isHex then return (← charOfCode (hexValue digits), n + 1)
    else .error .malformed
  | none, none => .error .malformed

/-- Puts characters before the rest of a scalar, whose end is `count` characters further on. -/
def addBefore (text : List Char) (count : Nat) (rest : Except ReadError (List Char × Nat)) :
    Except ReadError (List Char × Nat) :=
  rest.map fun (more, n) => (text ++ more, n + count)

/-- The text of a quoted scalar from behind its opening quote, and the number of characters up to and with the
closing quote. The first `skip` characters are already read. -/
def quotedFrom (quote : Char) : Nat → QuotedGap → List Char → Except ReadError (List Char × Nat)
  | _, _, [] => .error .malformed
  | skip + 1, gap, _ :: r => addBefore [] 1 (quotedFrom quote skip gap r)
  | 0, gap, c :: r =>
    if c = ' ' ∨ c = '\t' then addBefore [] 1 (quotedFrom quote 0 (gap.addBlank c) r)
    else if isBreak c then
      if boundaryAhead r then .error .malformed else addBefore [] 1 (quotedFrom quote 0 (gap.addBreak c) r)
    else if c = quote then
      if quote = '\'' ∧ r.head? = some '\'' then addBefore (gap.text ++ [c]) 1 (quotedFrom quote 1 .none r)
      else .ok (gap.text, 1)
    else if c = '\\' ∧ quote = '"' then
      match r with
      | [] => .error .malformed
      | e :: more =>
        if isBreak e then
          if boundaryAhead more then .error .malformed
          else addBefore gap.text 1 (quotedFrom quote 1 (.escaped []) r)
        else
          match escapeAt e more with
          | .ok (found, n) => addBefore (gap.text ++ [found]) 1 (quotedFrom quote n .none r)
          | .error cause => .error cause
    else addBefore (gap.text ++ [c]) 1 (quotedFrom quote 0 .none r)

end LayerLint.Yaml
