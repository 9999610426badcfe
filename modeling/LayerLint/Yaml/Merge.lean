import LayerLint.Yaml.Value

/-!
# Merging values

`merge` lays one value over another: where both are maps their entries merge key by key, and elsewhere the upper
value stands. The keys of the lower map keep their places and new keys follow in their order.
-/

namespace LayerLint.Yaml

variable {ι : Type}

mutual

/-- The upper value laid over the lower one. -/
def merge (lower : Value ι) : Value ι → Value ι
  | .map mark upper =>
    match lower with
    | .map mark' entries => .map mark' (mergeEntries entries upper)
    | _ => .map mark upper
  | upper => upper

/-- The entries of the upper map laid over those of the lower one. -/
def mergeEntries (lower : List (Scalar × Value ι)) : List (Scalar × Value ι) → List (Scalar × Value ι)
  | [] => lower
  | (key, value) :: rest =>
    mergeEntries
      (insertEntry key
        (match lookup? key lower with
          | some old => merge old value
          | none => value)
        lower)
      rest

end

end LayerLint.Yaml
