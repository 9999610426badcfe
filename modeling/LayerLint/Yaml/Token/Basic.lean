import LayerLint.Yaml.Character
import LayerLint.Yaml.Error

/-!
# Tokens of documents

The words, scalars and signs of a document, with the beginnings and ends that indentation implies.
-/

namespace LayerLint.Yaml

/-- A token of a document. -/
inductive Token where
  /-- A directive for the version of the language. -/
  | version (major : Nat)
  /-- A directive that gives the tags with a handle their beginning. -/
  | tagStem (handle stem : String)
  | otherDirective
  | documentStart
  | documentEnd
  | listStart
  | mapStart
  /-- The end of a list or map that indentation implies. -/
  | blockEnd
  | flowListStart
  | flowListEnd
  | flowMapStart
  | flowMapEnd
  /-- The comma between items. -/
  | comma
  /-- The hyphen before an item. -/
  | item
  | key
  | value
  | alias (name : String)
  | anchor (name : String)
  /-- A tag, with a handle unless it is given in full. -/
  | tag (handle : Option String) (suffix : String)
  | scalar (plain : Bool) (text : String)
  /-- Here the text breaks the rules of the language. -/
  | failure (cause : ReadError)
deriving DecidableEq, Repr

/-- A place in a text: the number of characters before it, of lines before it, and of columns before it. -/
structure Position where
  index : Nat
  line : Nat
  column : Nat
deriving DecidableEq, Repr

namespace Position

/-- The beginning of a text. -/
def start : Position := ⟨0, 0, 0⟩

/-- The place behind a character. The mark of byte order takes no column. -/
def next (p : Position) (c : Char) : Position :=
  if isBreak c then ⟨p.index + 1, p.line + 1, 0⟩
  else ⟨p.index + 1, p.line, if c = '\ufeff' then p.column else p.column + 1⟩

/-- The place behind some characters. -/
def after (p : Position) (s : List Char) : Position := s.foldl next p

end Position

end LayerLint.Yaml
