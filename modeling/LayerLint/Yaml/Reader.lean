import LayerLint.Yaml.Node
import LayerLint.Yaml.Token.Scanner

/-!
# The nodes of a document

`document?` puts tokens together to the tree of nodes that they describe. There is at most one document in a text.
A node is marked with the number of tokens from its beginning to the end of the text, so no two lists or maps of a
document have one mark.
-/

namespace LayerLint.Yaml

namespace Node

/-- The beginnings of tags by their handles. -/
abbrev Handles := List (String × String)

/-- The handles that every document has. -/
def standardHandles : Handles := [("!", "!"), ("!!", Tag.standardStem)]

/-- Why tokens cannot go on as they do. -/
def refusal : List Token → ReadError
  | .failure cause :: _ => cause
  | _ => .malformed

/-- The full name of a tag. -/
def tagName (handles : Handles) (handle : Option String) (suffix : String) : Except ReadError String :=
  match handle with
  | none => .ok suffix
  | some handle =>
    match handles.lookup handle with
    | some stem => .ok (stem ++ suffix)
    | none => .error .malformed

/-- The anchor and the tag before a node. -/
structure Properties where
  anchor : Option String
  tag : Option String
deriving DecidableEq, Repr

/-- Reads an anchor and a tag in either order; both may be missing. -/
def propertiesAt (handles : Handles) (tokens : List Token) : Except ReadError (Properties × List Token) := do
  match tokens with
  | .anchor name :: .tag handle suffix :: rest => return (⟨some name, some (← tagName handles handle suffix)⟩, rest)
  | .tag handle suffix :: .anchor name :: rest => return (⟨some name, some (← tagName handles handle suffix)⟩, rest)
  | .anchor name :: rest => return (⟨some name, none⟩, rest)
  | .tag handle suffix :: rest => return (⟨none, some (← tagName handles handle suffix)⟩, rest)
  | rest => return (⟨none, none⟩, rest)

/-- The tag of a scalar: the one that is given, or that of its form. A single exclamation mark asks for the
form of plain text. -/
def scalarTag (given : Option String) (plain : Bool) (text : String) : Tag :=
  match given with
  | none => if plain then Tag.ofPlain text.toList else .text
  | some name => if name == "!" then Tag.ofPlain text.toList else Tag.ofName name

/-- The tag of a list or map. -/
def collectionTag (given : Option String) (default : Tag) : Tag :=
  match given with
  | none => default
  | some name => if name == "!" then default else Tag.ofName name

/-- The node that stands where there is none. -/
def missing (tokens : List Token) : Node Nat := .scalar tokens.length none .null ""

/-- Which nodes a place admits: those of block layout, a list without indentation of its own, or only those
between brackets. -/
inductive Admits where
  | block
  | looseList
  | flow
deriving DecidableEq, Repr

/-- The next token is one of some signs of structure. -/
def ahead (signs tokens : List Token) : Bool := tokens.head?.any signs.contains

/-- Reads the comma before an item or entry, which the first has not. -/
def readComma (first : Bool) (tokens : List Token) : Except ReadError (List Token) :=
  if first then .ok tokens
  else
    match tokens with
    | .comma :: rest => .ok rest
    | rest => .error (refusal rest)

mutual

/-- Reads a node. The fuel bounds the depth of the calls, each of which but a constant number uses up a token. -/
def read (fuel : Nat) (handles : Handles) (admits : Admits) (tokens : List Token) :
    Except ReadError (Node Nat × List Token) :=
  match fuel with
  | 0 => .error .malformed
  | fuel + 1 => do
    let mark := tokens.length
    match tokens with
    | .alias name :: rest => return (.alias name, rest)
    | _ => do
      let (properties, rest) ← propertiesAt handles tokens
      match rest with
      | .scalar plain text :: rest =>
        return (.scalar mark properties.anchor (scalarTag properties.tag plain text) text, rest)
      | .flowListStart :: rest => do
        let (items, rest) ← readFlowItems fuel handles true rest
        return (.list mark properties.anchor (collectionTag properties.tag .list) items, rest)
      | .flowMapStart :: rest => do
        let (entries, rest) ← readFlowEntries fuel handles true rest
        return (.map mark properties.anchor (collectionTag properties.tag .map) entries, rest)
      | next :: rest' => do
        if next = .item ∧ admits = .looseList then
          let (items, rest) ← readLooseItems fuel handles rest
          return (.list mark properties.anchor (collectionTag properties.tag .list) items, rest)
        else if next = .listStart ∧ admits ≠ .flow then
          let (items, rest) ← readItems fuel handles rest'
          return (.list mark properties.anchor (collectionTag properties.tag .list) items, rest)
        else if next = .mapStart ∧ admits ≠ .flow then
          let (entries, rest) ← readEntries fuel handles rest'
          return (.map mark properties.anchor (collectionTag properties.tag .map) entries, rest)
        else if properties.anchor.isSome ∨ properties.tag.isSome then
          return (.scalar mark properties.anchor (scalarTag properties.tag true "") "", rest)
        else throw (refusal rest)
      | [] => do
        if properties.anchor.isSome ∨ properties.tag.isSome then
          return (.scalar mark properties.anchor (scalarTag properties.tag true "") "", [])
        else throw .malformed

/-- Reads a node unless one of some signs comes next. -/
def readUnless (fuel : Nat) (handles : Handles) (admits : Admits) (signs tokens : List Token) :
    Except ReadError (Node Nat × List Token) :=
  match fuel with
  | 0 => .error .malformed
  | fuel + 1 => if ahead signs tokens then .ok (missing tokens, tokens) else read fuel handles admits tokens

/-- Reads the items of a list up to its end. -/
def readItems (fuel : Nat) (handles : Handles) (tokens : List Token) :
    Except ReadError (List (Node Nat) × List Token) :=
  match fuel with
  | 0 => .error .malformed
  | fuel + 1 =>
    match tokens with
    | .item :: rest => do
      let (item, rest) ← readUnless fuel handles .block [.item, .blockEnd] rest
      let (items, rest) ← readItems fuel handles rest
      return (item :: items, rest)
    | .blockEnd :: rest => .ok ([], rest)
    | rest => .error (refusal rest)

/-- Reads the items of a list that has no indentation of its own. -/
def readLooseItems (fuel : Nat) (handles : Handles) (tokens : List Token) :
    Except ReadError (List (Node Nat) × List Token) :=
  match fuel with
  | 0 => .error .malformed
  | fuel + 1 =>
    match tokens with
    | .item :: rest => do
      let (item, rest) ← readUnless fuel handles .block [.item, .key, .value, .blockEnd] rest
      let (items, rest) ← readLooseItems fuel handles rest
      return (item :: items, rest)
    | rest => .ok ([], rest)

/-- Reads the entries of a map up to its end. -/
def readEntries (fuel : Nat) (handles : Handles) (tokens : List Token) :
    Except ReadError (List (Node Nat × Node Nat) × List Token) :=
  match fuel with
  | 0 => .error .malformed
  | fuel + 1 =>
    match tokens with
    | .key :: rest => do
      let (key, rest) ← readUnless fuel handles .looseList [.key, .value, .blockEnd] rest
      let (value, rest) ← readValue fuel handles .looseList [.key, .value, .blockEnd] rest
      let (entries, rest) ← readEntries fuel handles rest
      return ((key, value) :: entries, rest)
    | .blockEnd :: rest => .ok ([], rest)
    | rest => .error (refusal rest)

/-- Reads the value of an entry, which may be missing with its colon. -/
def readValue (fuel : Nat) (handles : Handles) (admits : Admits) (signs tokens : List Token) :
    Except ReadError (Node Nat × List Token) :=
  match fuel with
  | 0 => .error .malformed
  | fuel + 1 =>
    match tokens with
    | .value :: rest => readUnless fuel handles admits signs rest
    | rest => .ok (missing rest, rest)

/-- Reads the items between brackets, with a comma before each but the first. -/
def readFlowItems (fuel : Nat) (handles : Handles) (first : Bool) (tokens : List Token) :
    Except ReadError (List (Node Nat) × List Token) :=
  match fuel with
  | 0 => .error .malformed
  | fuel + 1 =>
    match tokens with
    | .flowListEnd :: rest => .ok ([], rest)
    | _ => do
      let tokens ← readComma first tokens
      match tokens with
      | .flowListEnd :: rest => return ([], rest)
      | .key :: rest => do
        let mark := tokens.length
        let (key, rest) ← readUnless fuel handles .flow [.value, .comma, .flowListEnd] rest
        let (value, rest) ← readValue fuel handles .flow [.comma, .flowListEnd] rest
        let (items, rest) ← readFlowItems fuel handles false rest
        return (.map mark none .map [(key, value)] :: items, rest)
      | _ => do
        let (item, rest) ← read fuel handles .flow tokens
        let (items, rest) ← readFlowItems fuel handles false rest
        return (item :: items, rest)

/-- Reads the entries between braces, with a comma before each but the first. -/
def readFlowEntries (fuel : Nat) (handles : Handles) (first : Bool) (tokens : List Token) :
    Except ReadError (List (Node Nat × Node Nat) × List Token) :=
  match fuel with
  | 0 => .error .malformed
  | fuel + 1 =>
    match tokens with
    | .flowMapEnd :: rest => .ok ([], rest)
    | _ => do
      let tokens ← readComma first tokens
      match tokens with
      | .flowMapEnd :: rest => return ([], rest)
      | .key :: rest => do
        let (key, rest) ← readUnless fuel handles .flow [.value, .comma, .flowMapEnd] rest
        let (value, rest) ← readValue fuel handles .flow [.comma, .flowMapEnd] rest
        let (entries, rest) ← readFlowEntries fuel handles false rest
        return ((key, value) :: entries, rest)
      | _ => do
        let (key, rest) ← read fuel handles .flow tokens
        let (entries, rest) ← readFlowEntries fuel handles false rest
        return ((key, missing rest) :: entries, rest)

end

/-! ## Documents -/

/-- What the directives before a document say. -/
structure Directives where
  hasVersion : Bool
  handles : Handles
deriving DecidableEq, Repr

/-- Reads the directives before a document. Only the first version of the language is known, and neither it nor a
handle is given twice. -/
def readDirectives (found : Directives) : List Token → Except ReadError (Directives × List Token)
  | .version major :: rest =>
    if found.hasVersion || major != 1 then .error .malformed else readDirectives { found with hasVersion := true } rest
  | .tagStem handle stem :: rest =>
    if (found.handles.lookup handle).isSome then .error .malformed
    else readDirectives { found with handles := (handle, stem) :: found.handles } rest
  | .otherDirective :: rest => readDirectives found rest
  | rest => .ok (found, rest)

/-- The token is a directive. -/
def isDirective : Token → Bool
  | .version _ | .tagStem .. | .otherDirective => true
  | _ => false

/-- The fuel that is enough for some tokens. -/
def fuelFor (tokens : List Token) : Nat := 4 * tokens.length + 8

/-- The text ends behind a document. -/
def readEnd (node : Node Nat) (tokens : List Token) : Except ReadError (Option (Node Nat)) :=
  match tokens.dropWhile (· == .documentEnd) with
  | [] => .ok (some node)
  | rest => .error (refusal rest)

/-- The content of a document, which may be missing. -/
def readContent (handles : Handles) (tokens : List Token) : Except ReadError (Option (Node Nat)) := do
  let isMissing := tokens.head?.all fun token => isDirective token || token == .documentStart || token == .documentEnd
  if isMissing then readEnd (missing tokens) tokens
  else do
    let (node, rest) ← read (fuelFor tokens) handles .block tokens
    readEnd node rest

/-- The document of some tokens, `none` where there is none. -/
def ofTokens? (tokens : List Token) : Except ReadError (Option (Node Nat)) :=
  match tokens with
  | [] => .ok none
  | first :: _ =>
    if isDirective first || first == .documentStart then do
      let (found, rest) ← readDirectives ⟨false, []⟩ tokens
      match rest with
      | .documentStart :: rest => readContent (found.handles ++ standardHandles) rest
      | rest => throw (refusal rest)
    else do
      let (node, rest) ← read (fuelFor tokens) standardHandles .block tokens
      readEnd node rest

/-- The document of a text, `none` where there is none. -/
def document? (text : String) : Except ReadError (Option (Node Nat)) := ofTokens? (tokens text.toList)

end Node

end LayerLint.Yaml
