import LayerLint.Yaml.Value

/-!
# The order of scalars

Numbers and truth values are ordered by size, texts by code points, bytes as numbers, dates and times by the
calendar. Scalars of different kinds have no order (`sorted?`).
-/

namespace LayerLint.Yaml

namespace Scalar

/-- A number in the order of numbers: an exact fraction, or one of the numbers beyond all fractions. -/
def lessNumber (a b : Scalar) : Option Bool :=
  let number? : Scalar → Option (Int ⊕ Binary64) := fun
    | .bool v => some (.inl (if v then 1 else 0))
    | .int n => some (.inl n)
    | .float x => some (.inr x)
    | .strayNan _ => some (.inr .nan)
    | _ => none
  match number? a, number? b with
  | some (.inl m), some (.inl n) => some (decide (m < n))
  | some (.inr x), some (.inr y) => some (x.lt y)
  | some (.inl m), some (.inr y) => some (y.greaterThan m)
  | some (.inr x), some (.inl n) => some (x.lessThan n)
  | _, _ => none

/-- The first scalar comes before the second; `none` where they have no order. -/
def less? (a b : Scalar) : Option Bool :=
  match a, b with
  | .text s, .text t => some (decide (s < t))
  | .bytes s, .bytes t => some (decide (s < t))
  | .date s, .date t => some (decide (s.dayNumber < t.dayNumber))
  | .timestamp s, .timestamp t =>
    if s.offset.isSome = t.offset.isSome then some (decide (s.instant < t.instant)) else none
  | a, b => lessNumber a b

/-- The scalars in order, if every two of them have one. -/
def sorted? (scalars : List Scalar) : Option (List Scalar) :=
  if scalars.length ≤ 1 || scalars.all fun a => scalars.all fun b => (a.less? b).isSome then
    some (scalars.mergeSort fun a b => b.less? a != some true)
  else none

end Scalar

end LayerLint.Yaml
