import LayerLint.Yaml.Node
import LayerLint.Yaml.Printer.Scalar

/-!
# The text of documents

Lists and maps in block layout: an item behind a hyphen, an entry as key, colon and value, and two more spaces of
indentation for what belongs to them. A list that is the value of an entry stands at the indentation of the
entry. Every node ends its last line.
-/

namespace LayerLint.Yaml

variable {ι : Type}

/-- Where a node is written. -/
structure Place where
  /-- The indentation of the list or map around the node, if there is one. -/
  indent : Option Nat
  column : Nat
  /-- A space has to separate the node from what stands before it. -/
  separated : Bool
  /-- Nothing but indentation and signs of structure stands on the line. -/
  fresh : Bool
  /-- The node belongs to a map. -/
  inMap : Bool
deriving DecidableEq, Repr

namespace Place

/-- The beginning of a document. -/
def top : Place := ⟨none, 0, false, true, false⟩

/-- Behind the hyphen of an item. -/
def item (indent : Nat) : Place := ⟨some indent, indent + 1, true, true, false⟩

/-- Behind the question mark or the colon of an entry whose key does not stand on one line. -/
def part (indent : Nat) : Place := ⟨some indent, indent + 1, true, true, true⟩

/-- The beginning of the line of an entry. -/
def key (indent : Nat) : Place := ⟨some indent, indent, false, true, true⟩

/-- Behind the colon of an entry. -/
def value (indent column : Nat) : Place := ⟨some indent, column, true, false, true⟩

/-- The space before the next word, if one is needed. -/
def gap (place : Place) : List Char := if place.separated then [' '] else []

/-- The place behind a word. -/
def after (place : Place) (word : List Char) : Place :=
  { place with column := place.column + place.gap.length + word.length, separated := true, fresh := false }

/-- The indentation of the further lines of a scalar, and of a map. -/
def inner (place : Place) (atTop : Nat) : Nat :=
  match place.indent with
  | some indent => indent + 2
  | none => atTop

/-- The indentation of a list. -/
def ofList (place : Place) : Nat :=
  match place.indent with
  | some indent => if place.inMap && !place.fresh then indent else indent + 2
  | none => 0

/-- What stands before the first item of a list or map: on a fresh line it begins at once. -/
def opening (place : Place) (indent : Nat) : List Char := if place.fresh then place.gap else '\n' :: spaces indent

end Place

/-- The word for a tag: standard tags have short names behind two exclamation marks. -/
def tagWord (tag : Tag) : List Char :=
  match tag, tag.shortName? with
  | _, some short => '!' :: '!' :: short.toList
  | .other name, none => "!<".toList ++ name.toList ++ ['>']
  | _, none => []

/-- The words before a node: its anchor, and its tag where this is not hidden. -/
def properties (anchor : Option String) (tag : Tag) (hidden : Bool) : List (List Char) :=
  (anchor.toList.map fun name => '&' :: name.toList) ++ (if hidden then [] else [tagWord tag])

/-- Writes words with spaces between them. -/
def words (place : Place) : List (List Char) → List Char × Place
  | [] => ([], place)
  | word :: rest =>
    let (text, last) := words (place.after word) rest
    (place.gap ++ word ++ text, last)

/-- The longest key that stands on one line with its colon, counted with its anchor and tag. -/
def maxKey : Nat := 128

/-- The node can be the key of an entry on one line. -/
def isSimpleKey : Node ι → Bool
  | .scalar _ anchor tag text =>
    let size := (anchor.map String.length).getD 0 + (tagWord tag).length + text.length
    decide (size < maxKey) && !text.isEmpty && !isMultiline text.toList
  | .list _ anchor tag items =>
    decide ((anchor.map String.length).getD 0 + (tagWord tag).length < maxKey) && items.isEmpty
  | .map _ anchor tag entries =>
    decide ((anchor.map String.length).getD 0 + (tagWord tag).length < maxKey) && entries.isEmpty
  | .alias name => decide (name.length < maxKey)

/-- The text of a scalar at a place, with its anchor and tag. Only a block ends its line. -/
def scalarText (place : Place) (anchor : Option String) (tag : Tag) (s : List Char) (onOneLine : Bool) : List Char :=
  let style := Style.choose tag s onOneLine
  let (lead, place) := words place (properties anchor tag (hidesTag tag s style))
  let folding : Folding := { indent := place.inner 2, folds := !onOneLine }
  let column := place.column + place.gap.length
  lead ++ place.gap ++
    match style with
    | .plain => plainText folding column s
    | .single => singleQuoted folding column s
    | .double => doubleQuoted folding column s
    | .block => blockText folding.indent s

/-- The scalar ends its line by itself. -/
def endsLine (tag : Tag) (s : List Char) : Bool := Style.choose tag s false == .block

/-- A node on one line, without the end of the line. -/
def keyText (indent : Nat) : Node ι → List Char
  | .scalar _ anchor tag text => scalarText (.key indent) anchor tag text.toList true
  | .list _ anchor tag _ => (words (.key indent) (properties anchor tag (tag == .list) ++ [['[', ']']])).1
  | .map _ anchor tag _ => (words (.key indent) (properties anchor tag (tag == .map) ++ [['\x7b', '\x7d']])).1
  | .alias name => '*' :: name.toList

/-- Pieces of text with indentation between them. -/
def joinIndented (indent : Nat) : List (List Char) → List Char
  | [] => []
  | [piece] => piece
  | piece :: rest => piece ++ spaces indent ++ joinIndented indent rest

mutual

/-- A node at a place, up to and with the end of its last line. -/
def nodeText (place : Place) : Node ι → List Char
  | .scalar _ anchor tag text =>
    scalarText place anchor tag text.toList false ++ (if endsLine tag text.toList then [] else ['\n'])
  | .alias name => place.gap ++ '*' :: name.toList ++ ['\n']
  | .list _ anchor tag items =>
    let (lead, place) := words place (properties anchor tag (tag == .list))
    if items.isEmpty then lead ++ place.gap ++ ['[', ']', '\n']
    else lead ++ place.opening place.ofList ++ joinIndented place.ofList (itemTexts place.ofList items)
  | .map _ anchor tag entries =>
    let (lead, place) := words place (properties anchor tag (tag == .map))
    if entries.isEmpty then lead ++ place.gap ++ ['\x7b', '\x7d', '\n']
    else lead ++ place.opening (place.inner 0) ++ joinIndented (place.inner 0) (entryTexts (place.inner 0) entries)

/-- The items of a list at an indentation. -/
def itemTexts (indent : Nat) : List (Node ι) → List (List Char)
  | [] => []
  | item :: rest => ('-' :: nodeText (.item indent) item) :: itemTexts indent rest

/-- The entries of a map at an indentation. -/
def entryTexts (indent : Nat) : List (Node ι × Node ι) → List (List Char)
  | [] => []
  | (key, value) :: rest =>
    (if isSimpleKey key then
      let keyText := keyText indent key
      keyText ++ ':' :: nodeText (.value indent (indent + keyText.length + 1)) value
    else
      '?' :: nodeText (.part indent) key ++ spaces indent ++ ':' :: nodeText (.part indent) value) ::
      entryTexts indent rest

end

/-- The last scalar of a node is a block that keeps several ends of lines. -/
def endsOpen : Node ι → Bool
  | .scalar _ _ tag text => endsLine tag text.toList && (blockHints text.toList).getLast? == some '+'
  | .list _ _ _ items => endsOpenItems items
  | .map _ _ _ entries => endsOpenEntries entries
  | .alias _ => false
where
  /-- The last of some items ends so. -/
  endsOpenItems : List (Node ι) → Bool
    | [] => false
    | [item] => endsOpen item
    | _ :: rest => endsOpenItems rest
  /-- The last of some entries ends so. -/
  endsOpenEntries : List (Node ι × Node ι) → Bool
    | [] => false
    | [(_, value)] => endsOpen value
    | _ :: rest => endsOpenEntries rest

/-- The node is a plain scalar. -/
def isPlainScalar : Node ι → Bool
  | .scalar _ _ tag text => Style.choose tag text.toList false == .plain
  | _ => false

/-- The text of a document. A line of three points ends a document whose end would not be seen otherwise. -/
def Node.render (node : Node ι) : String :=
  String.ofList (nodeText .top node ++ (if isPlainScalar node || endsOpen node then "...\n".toList else []))

end LayerLint.Yaml
