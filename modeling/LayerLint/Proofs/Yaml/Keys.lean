import LayerLint.Yaml.Value.OfNode
import LayerLint.Proofs.Result
import LayerLint.Proofs.Yaml.Merge

/-!
# The keys of documents

In the value of a document no map has a key twice, however deep it lies inside of other maps (`Value.Proper`,
`Value.ofText?_proper`).
-/

namespace LayerLint.Yaml

open Result

variable {ι κ : Type}

/-- The value has no map with a key twice, as far as maps lead. -/
inductive Value.Proper : Value ι → Prop where
  | map {mark : ι} {entries : List (Scalar × Value ι)} (distinct : DistinctKeys entries)
    (values : ∀ e ∈ entries, Value.Proper e.2) : Value.Proper (.map mark entries)
  | other {value : Value ι} (h : ¬ value.IsMap) : Value.Proper value

/-! ## Entries from settings -/

theorem distinctKeys_insertEntry {key : Scalar} {value : Value ι} {entries : List (Scalar × Value ι)}
    (h : DistinctKeys entries) : DistinctKeys (insertEntry key value entries) := by
  induction entries with
  | nil => simp [insertEntry, DistinctKeys]
  | cons entry rest ih =>
    obtain ⟨k, v⟩ := entry
    obtain ⟨hk, hrest⟩ := List.pairwise_cons.mp h
    rw [insertEntry]
    split
    · exact List.pairwise_cons.mpr ⟨hk, hrest⟩
    · rename_i hne
      refine List.pairwise_cons.mpr ⟨fun e he => ?_, ih hrest⟩
      rcases mem_insertEntry he with he | ⟨-, he | ⟨l, hl, he⟩⟩
      · exact hk e he
      · rw [he]
        exact Bool.eq_false_iff.mpr hne
      · rw [he]
        exact hk l hl

theorem distinctKeys_entriesOf (settings : List (Scalar × Value ι)) : DistinctKeys (entriesOf settings) := by
  suffices h : ∀ entries : List (Scalar × Value ι), DistinctKeys entries →
      DistinctKeys (settings.foldl (fun entries e => insertEntry e.1 e.2 entries) entries) from h [] .nil
  induction settings with
  | nil => exact fun _ h => h
  | cons e rest ih => exact fun entries h => ih _ (distinctKeys_insertEntry h)

theorem value_of_mem_entriesOf {settings : List (Scalar × Value ι)} {e : Scalar × Value ι}
    (h : e ∈ entriesOf settings) : ∃ s ∈ settings, e.2 = s.2 := by
  suffices hfold : ∀ entries : List (Scalar × Value ι),
      e ∈ settings.foldl (fun entries e => insertEntry e.1 e.2 entries) entries →
        (∃ l ∈ entries, e.2 = l.2) ∨ ∃ s ∈ settings, e.2 = s.2 by
    simpa using hfold [] h
  clear h
  induction settings with
  | nil => exact fun _ h => .inl ⟨e, h, rfl⟩
  | cons s rest ih =>
    intro entries h
    rcases ih _ h with ⟨l, hl, hle⟩ | ⟨s', hs', hse⟩
    · rcases mem_insertEntry hl with hl | ⟨hl, -⟩
      · exact .inl ⟨l, hl, hle⟩
      · exact .inr ⟨s, .head _, hle.trans hl⟩
    · exact .inr ⟨s', .tail _ hs', hse⟩

/-! ## Values of nodes -/

theorem both_eq_ok {α β : Type} {a : Except Fault α} {b : Except Fault β} {c : α × β} (h : both a b = .ok c) :
    a = .ok c.1 ∧ b = .ok c.2 := by
  cases a with
  | error e => cases b <;> cases h
  | ok x =>
    cases b with
    | error e => cases h
    | ok y =>
      cases h
      exact ⟨rfl, rfl⟩

theorem gather_eq_ok {α : Type} {results : List (Except Fault α)} {as : List α} (h : gather results = .ok as)
    {a : α} (ha : a ∈ as) : .ok a ∈ results := by
  induction results generalizing as with
  | nil => simp_all [gather]
  | cons r rest ih =>
    rw [gather] at h
    cases hboth : both r (gather rest) with
    | error e => simp [hboth, Except.map] at h
    | ok c =>
      obtain ⟨hr, hrest⟩ := both_eq_ok hboth
      obtain rfl : c.1 :: c.2 = as := by simpa [hboth, Except.map] using h
      rcases List.mem_cons.mp ha with rfl | ha
      · exact hr ▸ .head _
      · exact .tail _ (ih hrest ha)

/-- The entries of a map are those of its settings, whose values come from nodes. -/
theorem valueOf_map {anchors : Anchors} {fuel : Nat} {opened : List Nat} {level : Nat} {node : Node Nat} {mark : Nat}
    {entries : List (Scalar × Value Nat)} (h : valueOf anchors (fuel + 1) opened level node = .ok (.map mark entries)) :
    ∃ settings, entries = entriesOf settings ∧ ∀ s ∈ settings, ∃ level node,
      valueOf anchors fuel (mark :: opened) level node = .ok s.2 := by
  rw [valueOf] at h
  dsimp only at h
  split at h
  · cases h
  · split at h <;> simp [mapError_eq_ok, map_eq_ok] at h
  · split at h <;> (try split at h) <;> simp [mapError_eq_ok, map_eq_ok] at h
  · split at h <;> (try split at h) <;> simp [mapError_eq_ok, map_eq_ok] at h
    obtain ⟨hentries, rfl⟩ := h
    obtain ⟨merged, -, hmap⟩ := bind_eq_ok.mp hentries
    obtain ⟨settings, hsettings, rfl⟩ := map_eq_ok.mp hmap
    refine ⟨settings, rfl, fun s hs => ?_⟩
    obtain ⟨entry, -, hentry⟩ := List.mem_map.mp (gather_eq_ok hsettings hs)
    exact ⟨_, _, (both_eq_ok hentry).2⟩

theorem valueOf_proper (anchors : Anchors) (fuel : Nat) : ∀ (opened : List Nat) (level : Nat) (node : Node Nat)
    {value : Value Nat}, valueOf anchors fuel opened level node = .ok value → value.Proper := by
  induction fuel with
  | zero => simp [valueOf]
  | succ fuel ih =>
    intro opened level node value h
    cases value with
    | map mark entries =>
      obtain ⟨settings, rfl, hsettings⟩ := valueOf_map h
      refine .map (distinctKeys_entriesOf settings) fun e he => ?_
      obtain ⟨s, hs, hes⟩ := value_of_mem_entriesOf he
      obtain ⟨level', node', hvalue⟩ := hsettings s hs
      rw [hes]
      exact ih _ level' node' hvalue
    | scalar | list | set | pairs | cycle => exact .other id

/-! ## Marks -/

section Marks

variable {μ : Type} (f : ι → κ) (g : κ → μ)

mutual

theorem Value.remark_remark : ∀ v : Value ι, (v.remark f).remark g = v.remark (g ∘ f)
  | .scalar .. | .set .. | .cycle .. => rfl
  | .list _ items => congrArg _ (remarkItems_remarkItems items)
  | .map _ entries => congrArg _ (remarkEntries_remarkEntries entries)
  | .pairs _ items => congrArg _ (remarkPairs_remarkPairs items)

theorem Value.remarkItems_remarkItems : ∀ items : List (Value ι),
    Value.remarkItems g (Value.remarkItems f items) = Value.remarkItems (g ∘ f) items
  | [] => rfl
  | item :: rest => congrArg₂ _ (remark_remark item) (remarkItems_remarkItems rest)

theorem Value.remarkEntries_remarkEntries : ∀ entries : List (Scalar × Value ι),
    Value.remarkEntries g (Value.remarkEntries f entries) = Value.remarkEntries (g ∘ f) entries
  | [] => rfl
  | (key, value) :: rest =>
    congrArg₂ (fun v r => (key, v) :: r) (remark_remark value) (remarkEntries_remarkEntries rest)

theorem Value.remarkPairs_remarkPairs : ∀ items : List (Value ι × Value ι),
    Value.remarkPairs g (Value.remarkPairs f items) = Value.remarkPairs (g ∘ f) items
  | [] => rfl
  | (a, b) :: rest => by
    simp only [Value.remarkPairs, remark_remark a, remark_remark b, remarkPairs_remarkPairs rest]

end

mutual

theorem Value.remark_id : ∀ v : Value ι, v.remark id = v
  | .scalar .. | .set .. | .cycle .. => rfl
  | .list mark items => congrArg (Value.list mark) (remarkItems_id items)
  | .map mark entries => congrArg (Value.map mark) (remarkEntries_id entries)
  | .pairs mark items => congrArg (Value.pairs mark) (remarkPairs_id items)

theorem Value.remarkItems_id : ∀ items : List (Value ι), Value.remarkItems id items = items
  | [] => rfl
  | item :: rest => congrArg₂ List.cons (remark_id item) (remarkItems_id rest)

theorem Value.remarkEntries_id : ∀ entries : List (Scalar × Value ι), Value.remarkEntries id entries = entries
  | [] => rfl
  | (key, value) :: rest => congrArg₂ (fun v r => (key, v) :: r) (remark_id value) (remarkEntries_id rest)

theorem Value.remarkPairs_id : ∀ items : List (Value ι × Value ι), Value.remarkPairs id items = items
  | [] => rfl
  | (a, b) :: rest => by simp only [Value.remarkPairs, remark_id a, remark_id b, remarkPairs_id rest]

end

/-- Plain data with marks, and then without them, is what it was. -/
theorem Value.plain_remark (value : Value Unit) (f : Unit → κ) : (value.remark f).plain = value := by
  rw [Value.plain, Value.remark_remark]
  exact Value.remark_id value

/-- New marks are forgotten like the old ones. -/
theorem Value.plain_remark_some (value : Value ι) : (value.remark some).plain = value.plain :=
  Value.remark_remark some _ value

theorem Value.isFalsy_remark (value : Value ι) : (value.remark f).isFalsy = value.isFalsy := by
  cases value with
  | scalar | set | cycle => rfl
  | list mark items => cases items <;> rfl
  | map mark entries => cases entries <;> rfl
  | pairs mark items => cases items <;> rfl

end Marks

theorem remarkEntries_eq_map (f : ι → κ) (entries : List (Scalar × Value ι)) :
    Value.remarkEntries f entries = entries.map fun e => (e.1, e.2.remark f) := by
  induction entries with
  | nil => rfl
  | cons e rest ih => rw [Value.remarkEntries, ih, List.map_cons]

theorem lookup?_remarkEntries (f : ι → κ) (entries : List (Scalar × Value ι)) (key : Scalar) :
    lookup? key (Value.remarkEntries f entries) = (lookup? key entries).map (·.remark f) := by
  rw [remarkEntries_eq_map]
  induction entries with
  | nil => rfl
  | cons e rest ih =>
    obtain ⟨k, v⟩ := e
    rw [List.map_cons, lookup?_cons, lookup?_cons, ih]
    split <;> rfl

/-- Keys are the same without marks. -/
theorem lookup?_plain (entries : List (Scalar × Value ι)) (key : Scalar) :
    lookup? key (Value.remarkEntries (fun _ => ()) entries) = (lookup? key entries).map Value.plain :=
  lookup?_remarkEntries _ entries key

theorem Value.Proper.remark (f : ι → κ) {value : Value ι} (h : value.Proper) : (value.remark f).Proper := by
  induction h with
  | map distinct values ih =>
    rw [Value.remark, remarkEntries_eq_map]
    refine .map (List.pairwise_map.mpr distinct) fun e he => ?_
    obtain ⟨o, ho, rfl⟩ := List.mem_map.mp he
    exact ih o ho
  | @other value h =>
    cases value with
    | map => exact absurd trivial h
    | scalar | list | set | pairs | cycle => exact .other id

/-- **In the value of a document no map has a key twice.** -/
theorem Value.ofText?_proper {text : String} {value : Value Nat} (h : Value.ofText? text = .ok (some value)) :
    value.Proper := by
  rw [Value.ofText?, bind_eq_ok] at h
  obtain ⟨document, -, h⟩ := h
  cases document with
  | none => cases h
  | some node =>
    simp only [bind_eq_ok, pure_eq_ok, Option.some.injEq] at h
    obtain ⟨value', hvalue, rfl⟩ := h
    exact valueOf_proper _ _ _ _ _ (mapError_eq_ok.mp hvalue)

end LayerLint.Yaml
