import LayerLint.Import
import LayerLint.OrderedMap
import LayerLint.Source.Header

/-!
# Which symbols a file uses

A file uses a symbol of an import where it selects it from the name of the import. `SyntaxTree.walk` visits all nodes
of its tree, `SyntaxTree.reference?` reads the name and the symbol of one that selects, and `usages` sorts the symbols
by import.
-/

namespace LayerLint.Source

/-- A node of a syntax tree: its kind, the field of its parent that it stands in, its text and its children. -/
inductive SyntaxTree where
  | node (kind : String) (field : Option String) (text : String) (children : List SyntaxTree)

namespace SyntaxTree

/-- The kind of a node. -/
def kind : SyntaxTree → String
  | .node kind _ _ _ => kind

/-- The field of its parent that a node stands in. -/
def field : SyntaxTree → Option String
  | .node _ field _ _ => field

/-- The text of a node. -/
def text : SyntaxTree → String
  | .node _ _ text _ => text

/-- The children of a node. -/
def children : SyntaxTree → List SyntaxTree
  | .node _ _ _ children => children

/-- The first child in a field. -/
def child? (tree : SyntaxTree) (field : String) : Option SyntaxTree := tree.children.find? (·.field == some field)

/-- The fields of the operand and the member, for the kinds of nodes that select one from the other. -/
def selectionFields? (kind : String) : Option (String × String) :=
  if kind = "selector_expression" then some ("operand", "field")
  else if kind = "qualified_type" then some ("package", "name")
  else none

/-- The kinds of plain names. -/
def nameKinds : List String := ["identifier", "package_identifier"]

/-- The name and the symbol of a node that selects a symbol from a plain name. -/
def reference? (tree : SyntaxTree) : Option (String × String) := do
  let (operandField, memberField) ← selectionFields? tree.kind
  let operand ← tree.child? operandField
  let member ← tree.child? memberField
  if nameKinds.contains operand.kind then some (operand.text, member.text) else none

theorem sizeOf_append_lt (kind : String) (field : Option String) (text : String) (children stack : List SyntaxTree) :
    sizeOf (children ++ stack) < sizeOf (node kind field text children :: stack) := by
  have happend : sizeOf (children ++ stack) ≤ sizeOf children + sizeOf stack := by
    induction children with
    | nil => simp
    | cons child children ih =>
      simp only [List.cons_append, List.cons.sizeOf_spec]
      omega
  simp only [List.cons.sizeOf_spec, node.sizeOf_spec]
  omega

/-- All nodes below the nodes of a stack, each before its children. -/
def walk : List SyntaxTree → List SyntaxTree
  | [] => []
  | .node kind field text children :: stack => .node kind field text children :: walk (children ++ stack)
termination_by stack => sizeOf stack
decreasing_by exact sizeOf_append_lt kind field text children stack

/-- The names and symbols of all selections in a tree, in the order of the text. -/
def references (tree : SyntaxTree) : List (String × String) := (walk [tree]).filterMap reference?

/-- A node without children. -/
def leaf (kind text : String) : SyntaxTree := .node kind none text []

/-- The node in a field. -/
def inField (field : String) : SyntaxTree → SyntaxTree
  | .node kind _ text children => .node kind (some field) text children

/-- The tree of a word: a name, if it is an identifier and no fixed value. -/
def ofWord (word : String) : SyntaxTree :=
  leaf (if isIdentifier word && !valueWords.contains word then "identifier" else word) word

/-- The selection of a member from what stands before it. -/
def select (operand : Option SyntaxTree) (member : String) : SyntaxTree :=
  .node "selector_expression" none ""
    ((operand.map (inField "operand")).toList ++ [leaf "." ".", inField "field" (leaf "field_identifier" member)])

/-- The trees of tokens, where `operand` is what a dot at the beginning selects from. -/
def ofTokensFrom (operand : Option SyntaxTree) : List TokenKind → List SyntaxTree
  | [] => operand.toList
  | .mark "." :: .word member :: rest => ofTokensFrom (some (select operand member)) rest
  | .word word :: rest => operand.toList ++ ofTokensFrom (some (ofWord word)) rest
  | _ :: rest => operand.toList ++ ofTokensFrom none rest

/-- The tree of the tokens of a file. -/
def ofTokens (tokens : List Token) : SyntaxTree :=
  .node "source_file" none "" (ofTokensFrom none (tokens.map (·.kind)))

end SyntaxTree

/-- The name that an import is called by in the file. -/
def ImportSpec.calledName (spec : ImportSpec) : String := spec.name.getD (Import.defaultName spec.path)

/-- The names that call nothing. -/
def unboundNames : List String := ["_", "."]

/-- The table of names with one more import, which takes its name over from an earlier one. -/
def bindImport (table : OrderedMap String String) (spec : ImportSpec) : OrderedMap String String :=
  if unboundNames.contains spec.calledName then table else table.insert spec.calledName spec.path

/-- The path that each name calls. -/
def boundNames (imports : List ImportSpec) : OrderedMap String String := imports.foldl bindImport .empty

/-- The used symbols of each path with those of one more selection. -/
def recordUse (table : OrderedMap String String) (used : OrderedMap String (List String)) (use : String × String) :
    OrderedMap String (List String) :=
  match table.find? use.1 with
  | none => used
  | some path =>
    let symbols := (used.find? path).getD []
    used.insert path (if symbols.contains use.2 then symbols else symbols ++ [use.2])

/-- The symbols of each path among selections, sorted. -/
def usagesOf (references : List (String × String)) (imports : List ImportSpec) : List (String × List String) :=
  ((references.foldl (recordUse (boundNames imports)) .empty).mapValues Text.sort).entries

/-- The symbols that a tree selects from each import that is used, sorted. -/
def usages (tree : SyntaxTree) (imports : List ImportSpec) : List (String × List String) :=
  usagesOf tree.references imports

end LayerLint.Source
