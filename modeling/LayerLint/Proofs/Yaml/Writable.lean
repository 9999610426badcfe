import LayerLint.Proofs.Yaml.Keys

/-!
# Values that can be written

A value can be written where none of the whole numbers in it has too many digits. Marks do not matter for that
(`Value.isWritable_remark`), and merged maps can be written where both maps can (`areWritableEntries_mergeEntries`).
-/

namespace LayerLint.Yaml

open Value

variable {ι κ : Type}

/-! ## Parts and marks -/

theorem areWritableEntries_iff {entries : List (Scalar × Value ι)} :
    areWritableEntries entries = true ↔ ∀ e ∈ entries, e.1.isWritable = true ∧ e.2.isWritable = true := by
  induction entries with
  | nil => simp [areWritableEntries]
  | cons e rest ih => simp [areWritableEntries, ih, and_assoc]

section Marks

variable (f : ι → κ)

mutual

/-- Marks do not matter for what can be written. -/
theorem Value.isWritable_remark : ∀ v : Value ι, (v.remark f).isWritable = v.isWritable
  | .scalar .. | .set .. | .cycle .. => rfl
  | .list _ items => areWritableItems_remark items
  | .map _ entries => areWritableEntries_remark entries
  | .pairs _ items => areWritablePairs_remark items

theorem areWritableItems_remark : ∀ items : List (Value ι),
    areWritableItems (remarkItems f items) = areWritableItems items
  | [] => rfl
  | item :: rest => congrArg₂ and (Value.isWritable_remark item) (areWritableItems_remark rest)

theorem areWritableEntries_remark : ∀ entries : List (Scalar × Value ι),
    areWritableEntries (remarkEntries f entries) = areWritableEntries entries
  | [] => rfl
  | (key, value) :: rest =>
    congrArg₂ (fun v r => key.isWritable && v && r) (Value.isWritable_remark value) (areWritableEntries_remark rest)

theorem areWritablePairs_remark : ∀ items : List (Value ι × Value ι),
    areWritablePairs (remarkPairs f items) = areWritablePairs items
  | [] => rfl
  | (a, b) :: rest => by
    simp only [remarkPairs, areWritablePairs, Value.isWritable_remark a, Value.isWritable_remark b,
      areWritablePairs_remark rest]

end

end Marks

/-! ## Nothing and texts -/

/-- What counts as nothing can be written. -/
theorem Value.isWritable_of_isFalsy {v : Value ι} (h : v.isFalsy = true) : v.isWritable = true := by
  cases v with
  | scalar mark s =>
    cases s with
    | int n =>
      obtain rfl : n = 0 := by simpa [Value.isFalsy, Scalar.isFalsy] using h
      change Text.isWritable 0 = true
      exact Text.isWritable_of_lt (show (0 : Int).natAbs < 10 ^ 1 by decide) (by decide)
    | _ => rfl
  | list mark items | map mark items | pairs mark items =>
    obtain rfl := List.isEmpty_iff.mp h
    rfl
  | set mark members =>
    obtain rfl := List.isEmpty_iff.mp h
    rfl
  | cycle => rfl

/-! ## Merged maps -/

theorem areWritableEntries_insertEntry {key : Scalar} {value : Value ι} {entries : List (Scalar × Value ι)}
    (hkey : key.isWritable = true) (hvalue : value.isWritable = true) (hentries : areWritableEntries entries = true) :
    areWritableEntries (insertEntry key value entries) = true := by
  rw [areWritableEntries_iff] at hentries ⊢
  intro e he
  rcases mem_insertEntry he with he | ⟨hval, hkeys⟩
  · exact hentries e he
  · refine ⟨?_, hval ▸ hvalue⟩
    rcases hkeys with hsame | ⟨l, hl, hsame⟩
    · exact hsame ▸ hkey
    · exact hsame ▸ (hentries l hl).1

mutual

theorem Value.isWritable_merge : ∀ {lower upper : Value ι}, lower.isWritable = true → upper.isWritable = true →
    (merge lower upper).isWritable = true
  | .map _ entries, .map _ upper, hlower, hupper => by
    rw [merge]
    exact areWritableEntries_mergeEntries hlower hupper
  | .scalar .., .map .., _, hupper | .list .., .map .., _, hupper | .set .., .map .., _, hupper
  | .pairs .., .map .., _, hupper | .cycle .., .map .., _, hupper => by simpa [merge] using hupper
  | _, .scalar .., _, hupper | _, .list .., _, hupper | _, .set .., _, hupper | _, .pairs .., _, hupper
  | _, .cycle .., _, hupper => by simpa [merge] using hupper

/-- **Merged maps can be written where both maps can.** -/
theorem areWritableEntries_mergeEntries : ∀ {lower upper : List (Scalar × Value ι)},
    areWritableEntries lower = true → areWritableEntries upper = true →
      areWritableEntries (mergeEntries lower upper) = true
  | _, [], hlower, _ => by rwa [mergeEntries]
  | lower, (key, value) :: rest, hlower, hupper => by
    simp only [areWritableEntries, Bool.and_eq_true] at hupper
    obtain ⟨⟨hkey, hvalue⟩, hrest⟩ := hupper
    rw [mergeEntries]
    refine areWritableEntries_mergeEntries (areWritableEntries_insertEntry hkey ?_ hlower) hrest
    cases hold : lookup? key lower with
    | none => exact hvalue
    | some old =>
      obtain ⟨e, he, rfl⟩ := mem_of_lookup? hold
      exact Value.isWritable_merge (areWritableEntries_iff.mp hlower e he).2 hvalue

end

end LayerLint.Yaml
