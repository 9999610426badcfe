import LayerLint.Yaml.Value

/-!
# Collections inside of themselves

A value shows a collection inside of itself as a cycle. What stands in the collection is seen without it: a part of a
collection has the cycles that close below it, and in place of the others the collection that they lead back to
(`Value.viewOf`). A map is opened when all that stands in it is seen in this way (`Value.openedWith`).
-/

namespace LayerLint.Yaml.Value

variable {ι : Type}

/-- The mark of a value. -/
def mark : Value ι → ι
  | .scalar mark _ | .list mark _ | .map mark _ | .set mark _ | .pairs mark _ | .cycle mark _ => mark

mutual

/-- The value with other values in place of some of its parts. -/
def replaceParts (f : Value ι → Option (Value ι)) : Value ι → Value ι
  | .scalar mark s => (f (.scalar mark s)).getD (.scalar mark s)
  | .list mark items => (f (.list mark items)).getD (.list mark (replaceItems f items))
  | .map mark entries => (f (.map mark entries)).getD (.map mark (replaceEntries f entries))
  | .set mark members => (f (.set mark members)).getD (.set mark members)
  | .pairs mark items => (f (.pairs mark items)).getD (.pairs mark (replacePairs f items))
  | .cycle mark isMap => (f (.cycle mark isMap)).getD (.cycle mark isMap)

/-- Items with other values in place of some of their parts. -/
def replaceItems (f : Value ι → Option (Value ι)) : List (Value ι) → List (Value ι)
  | [] => []
  | item :: rest => replaceParts f item :: replaceItems f rest

/-- Entries with other values in place of some of their parts. -/
def replaceEntries (f : Value ι → Option (Value ι)) : List (Scalar × Value ι) → List (Scalar × Value ι)
  | [] => []
  | (key, value) :: rest => (key, replaceParts f value) :: replaceEntries f rest

/-- Pairs with other values in place of some of their parts. -/
def replacePairs (f : Value ι → Option (Value ι)) : List (Value ι × Value ι) → List (Value ι × Value ι)
  | [] => []
  | (a, b) :: rest => (replaceParts f a, replaceParts f b) :: replacePairs f rest

end

section Views

variable [DecidableEq ι]

/-- The cycle that stands for a collection with the mark. -/
def closed? (mark : ι) : Value ι → Option (Value ι)
  | .list mark' _ | .set mark' _ | .pairs mark' _ => if mark' = mark then some (.cycle mark false) else none
  | .map mark' _ => if mark' = mark then some (.cycle mark true) else none
  | .scalar .. | .cycle .. => none

/-- The collection that a cycle with the mark stands for. -/
def opened? (mark : ι) (whole : Value ι) : Value ι → Option (Value ι)
  | .cycle mark' _ => if mark' = mark then some whole else none
  | _ => none

/-- A part of a collection, with the collection in place of its cycles in the part, where the part in turn is one. -/
def viewOf (whole : Value ι) : Value ι → Value ι
  | .cycle mark isMap => if mark = whole.mark then whole else .cycle mark isMap
  | part => part.replaceParts (opened? whole.mark (whole.replaceParts (closed? part.mark)))

/-- The view of the value at a key, opened where the key has an opening. -/
def openedAt (inside : List (String × (Value ι → Value ι))) (key : Scalar) (view : Value ι) : Value ι :=
  match inside.find? fun field => key == .text field.1 with
  | some field => field.2 view
  | none => view

/-- A map with its values seen from it, and those at some keys opened in their turn. -/
def openedWith (inside : List (String × (Value ι → Value ι))) : Value ι → Value ι
  | .map mark entries =>
    .map mark <| entries.map fun (key, value) => (key, openedAt inside key (viewOf (.map mark entries) value))
  | value => value

end Views

end LayerLint.Yaml.Value
