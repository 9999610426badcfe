import LayerLint.Yaml.Reader
import LayerLint.Yaml.ScalarText
import LayerLint.Yaml.Value

/-!
# The value of a document

`Value.ofText?` gives the value that a text describes. A map takes over the entries of those that its merge keys
name, before its own. An alias stands for the node that it names, with the mark of that node; inside of this node
it is a cycle.

Collections are filled level by level, and the first error in this order is the one that counts (`Fault.first`).
-/

namespace LayerLint.Yaml

/-- Nodes by their anchors. -/
abbrev Anchors := List (String × Node Nat)

namespace Node

variable {ι : Type}

mutual

/-- The nodes with anchors in a node. -/
def anchors : Node ι → List (String × Node ι)
  | .alias _ => []
  | .scalar mark anchor tag text => anchor.toList.map fun name => (name, .scalar mark anchor tag text)
  | .list mark anchor tag items =>
    (anchor.toList.map fun name => (name, .list mark anchor tag items)) ++ anchorsOfItems items
  | .map mark anchor tag entries =>
    (anchor.toList.map fun name => (name, .map mark anchor tag entries)) ++ anchorsOfEntries entries

/-- The nodes with anchors in items. -/
def anchorsOfItems : List (Node ι) → List (String × Node ι)
  | [] => []
  | item :: rest => anchors item ++ anchorsOfItems rest

/-- The nodes with anchors in entries. -/
def anchorsOfEntries : List (Node ι × Node ι) → List (String × Node ι)
  | [] => []
  | (key, value) :: rest => anchors key ++ anchors value ++ anchorsOfEntries rest

end

mutual

/-- The number of nodes in a node. -/
def size : Node ι → Nat
  | .alias _ | .scalar .. => 1
  | .list _ _ _ items => sizeOfItems items + 1
  | .map _ _ _ entries => sizeOfEntries entries + 1

/-- The number of nodes in items. -/
def sizeOfItems : List (Node ι) → Nat
  | [] => 0
  | item :: rest => size item + sizeOfItems rest

/-- The number of nodes in entries. -/
def sizeOfEntries : List (Node ι × Node ι) → Nat
  | [] => 0
  | (key, value) :: rest => size key + size value + sizeOfEntries rest

end

/-- The node that a node stands for. -/
def resolve (anchors : Anchors) : Node Nat → Node Nat
  | .alias name => (anchors.lookup name).getD (.alias name)
  | node => node

/-- The tag of a node, if it has one. -/
def tag? : Node ι → Option Tag
  | .scalar _ _ tag _ | .list _ _ tag _ | .map _ _ tag _ => some tag
  | .alias _ => none

end Node

/-- An error and the level at which it arises. -/
structure Fault where
  level : Nat
  cause : ReadError
deriving DecidableEq, Repr

/-- Of two errors that of the higher level, of one level the former. -/
def Fault.first (a b : Fault) : Fault := if b.level < a.level then b else a

/-- Two results together. -/
def both {α β : Type} : Except Fault α → Except Fault β → Except Fault (α × β)
  | .ok a, .ok b => .ok (a, b)
  | .error e, .error f => .error (e.first f)
  | .error e, .ok _ => .error e
  | .ok _, .error f => .error f

/-- All results together. -/
def gather {α : Type} : List (Except Fault α) → Except Fault (List α)
  | [] => .ok []
  | r :: rest => (both r (gather rest)).map fun (a, as) => a :: as

/-! ## Merge keys -/

/-- The entry merges others. -/
def isMergeEntry (anchors : Anchors) (entry : Node Nat × Node Nat) : Bool :=
  (entry.1.resolve anchors).tag? == some .merge

/-- The entries of a map with those that its merge keys name before its own. A map that is being merged already
gives its own entries alone. The fuel bounds the depth. -/
def mergedEntries (anchors : Anchors) (fuel : Nat) (merging : List Nat) (mark : Nat)
    (entries : List (Node Nat × Node Nat)) : Except ReadError (List (Node Nat × Node Nat)) :=
  let own := entries.filter (!isMergeEntry anchors ·)
  match fuel with
  | 0 => .ok own
  | fuel + 1 =>
    if merging.contains mark then .ok own
    else do
      let ofMap := fun (node : Node Nat) =>
        match node.resolve anchors with
        | .map inner _ _ entries => mergedEntries anchors fuel (mark :: merging) inner entries
        | _ => .error .malformed
      let found ← (entries.filter (isMergeEntry anchors)).mapM fun entry =>
        match entry.2.resolve anchors with
        | .list _ _ _ items => do return (← items.mapM ofMap).reverse.flatten
        | node => ofMap node
      return found.flatten ++ own

/-! ## Values -/

/-- The text of a scalar, or of a map that has one under the key for values. The fuel bounds the way to it, which has
no end where it leads back to a map. -/
def textOf (anchors : Anchors) : Nat → Node Nat → Except ReadError String
  | _, .scalar _ _ _ text => .ok text
  | fuel, .map _ _ _ entries =>
    match entries.find? fun entry => (entry.1.resolve anchors).tag? == some .value, fuel with
    | none, _ => .error .malformed
    | some _, 0 => .error .endless
    | some entry, fuel + 1 => textOf anchors fuel (entry.2.resolve anchors)
  | _, _ => .error .malformed

/-- The tag is that of a list, a map or another collection. -/
def Tag.isCollection : Tag → Bool
  | .list | .map | .set | .orderedMap | .pairs => true
  | _ => false

/-- The scalar of a node with a mark and a tag. -/
def scalarOf (anchors : Anchors) (fuel mark : Nat) (tag : Tag) (node : Node Nat) : Except ReadError Scalar := do
  Scalar.ofText mark tag (← textOf anchors fuel node)

/-- The key that a node stands for: a scalar. -/
def keyOf (anchors : Anchors) (fuel : Nat) (node : Node Nat) : Except ReadError Scalar :=
  match node with
  | .scalar _ _ .value text => .ok (.text text)
  | .scalar mark _ tag _ | .list mark _ tag _ | .map mark _ tag _ => scalarOf anchors fuel mark tag node
  | .alias _ => .error .malformed

/-- The value of a node that is found at a level inside of collections. The fuel bounds the depth. -/
def valueOf (anchors : Anchors) (fuel : Nat) (opened : List Nat) (level : Nat) (node : Node Nat) :
    Except Fault (Value Nat) :=
  match fuel with
  | 0 => .error ⟨level, .malformed⟩
  | fuel + 1 =>
    let inside := fun (mark : Nat) (node : Node Nat) => valueOf anchors fuel (mark :: opened) (level + 1) node
    let now := fun {α : Type} (r : Except ReadError α) => r.mapError fun cause => (⟨level, cause⟩ : Fault)
    let later := fun {α : Type} (r : Except ReadError α) => r.mapError fun cause => (⟨level + 1, cause⟩ : Fault)
    let entriesIn := fun (mark : Nat) (entries : List (Node Nat × Node Nat)) =>
      (later (mergedEntries anchors fuel [] mark entries)).bind fun merged =>
        (gather <| merged.map fun (key, value) =>
          both (later (keyOf anchors fuel (key.resolve anchors))) (inside mark value)).map entriesOf
    match node.resolve anchors with
    | .alias _ => .error ⟨level, .malformed⟩
    | .scalar mark anchor tag text =>
      if tag.isCollection then .error ⟨level + 1, .malformed⟩
      else now ((scalarOf anchors fuel mark tag (.scalar mark anchor tag text)).map (.scalar mark))
    | .list mark anchor tag items =>
      match tag with
      | .list =>
        if opened.contains mark then .ok (.cycle mark false)
        else (gather (items.map (inside mark))).map (.list mark)
      | .orderedMap | .pairs =>
        if opened.contains mark then .ok (.cycle mark false)
        else
          (gather <| items.map fun item =>
            match item.resolve anchors with
            | .map _ _ _ [(key, value)] => both (inside mark key) (inside mark value)
            | _ => .error ⟨level + 1, .malformed⟩).map (.pairs mark)
      | .map | .set => .error ⟨level + 1, .malformed⟩
      | tag => now ((scalarOf anchors fuel mark tag (.list mark anchor tag items)).map (.scalar mark))
    | .map mark anchor tag entries =>
      match tag with
      | .map => if opened.contains mark then .ok (.cycle mark true) else (entriesIn mark entries).map (.map mark)
      | .set =>
        if opened.contains mark then .ok (.cycle mark false)
        else (entriesIn mark entries).map fun entries => .set mark (entries.map (·.1))
      | .list | .orderedMap | .pairs => .error ⟨level + 1, .malformed⟩
      | tag => now ((scalarOf anchors fuel mark tag (.map mark anchor tag entries)).map (.scalar mark))

/-- The value of the node of a document. -/
def Value.ofNode (node : Node Nat) : Except ReadError (Value Nat) :=
  (valueOf node.anchors (2 * node.size + 2) [] 0 node).mapError (·.cause)

/-- The value that a text describes, `none` where the text holds no document. -/
def Value.ofText? (text : String) : Except ReadError (Option (Value Nat)) := do
  match ← Node.document? text with
  | none => return none
  | some node => return some (← Value.ofNode node)

end LayerLint.Yaml
