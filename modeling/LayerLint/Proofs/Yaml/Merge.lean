import LayerLint.Yaml.Merge
import Mathlib.Tactic.Common

/-!
# Entries of merged maps

- Being the same key is an equivalence, for it compares what keys stand for (`sameKey_iff`).
- A key that is set has its new value, and the others have their old ones (`lookup?_insertEntry`).
- A key of the upper map has the upper value laid over the lower one, and the other keys keep theirs
  (`lookup?_mergeEntries`).
- The values of merged maps are values of the one or the other map, or are maps themselves
  (`value_of_mem_mergeEntries`), and every upper value is among them unless it is a map (`mem_mergeEntries_of_upper`).
-/

namespace LayerLint.Yaml

variable {ι : Type}

/-! ## Keys -/

namespace Scalar

/-- What a scalar stands for as a key: a whole number, an instant, or itself. -/
def meaning (a : Scalar) : Int ⊕ Int ⊕ Scalar :=
  match a.asInt?, a.asInstant? with
  | some n, _ => .inl n
  | none, some instant => .inr (.inl instant)
  | none, none => .inr (.inr a)

theorem asInstant?_of_asInt? {a : Scalar} {n : Int} (h : a.asInt? = some n) : a.asInstant? = none := by
  cases a <;> simp_all [asInt?, asInstant?]

/-- **Two scalars are the same key when they stand for the same.** -/
theorem sameKey_iff {a b : Scalar} : a.sameKey b = true ↔ a.meaning = b.meaning := by
  have hne : ∀ {f : Scalar → Option Int} {n : Int}, f a = some n → f b = none → a ≠ b := by
    rintro f n ha hb rfl
    simp [ha] at hb
  have hne' : ∀ {f : Scalar → Option Int} {n : Int}, f a = none → f b = some n → a ≠ b := by
    rintro f n ha hb rfl
    simp [hb] at ha
  cases ha : a.asInt? with
  | some m =>
    have ha' := asInstant?_of_asInt? ha
    cases hb : b.asInt? with
    | some n => simp [sameKey, meaning, ha, hb]
    | none => cases hb' : b.asInstant? <;> simp [sameKey, meaning, ha, hb, ha', hb', hne ha hb]
  | none =>
    cases hb : b.asInt? with
    | some n =>
      have hb' := asInstant?_of_asInt? hb
      cases ha' : a.asInstant? <;> simp [sameKey, meaning, ha, hb, ha', hb', hne' ha hb]
    | none =>
      cases ha' : a.asInstant? with
      | some s =>
        cases hb' : b.asInstant? with
        | some t => simp [sameKey, meaning, ha, hb, ha', hb']
        | none => simp [sameKey, meaning, ha, hb, ha', hb', hne ha' hb']
      | none =>
        cases hb' : b.asInstant? with
        | some t => simp [sameKey, meaning, ha, hb, ha', hb', hne' ha' hb']
        | none => simp [sameKey, meaning, ha, hb, ha', hb']

@[simp] theorem sameKey_self (a : Scalar) : a.sameKey a = true := sameKey_iff.mpr rfl

theorem sameKey_comm {a b : Scalar} : a.sameKey b = b.sameKey a := by
  rw [Bool.eq_iff_iff, sameKey_iff, sameKey_iff]
  exact eq_comm

theorem sameKey_trans {a b c : Scalar} (hab : a.sameKey b = true) (hbc : b.sameKey c = true) :
    a.sameKey c = true :=
  sameKey_iff.mpr ((sameKey_iff.mp hab).trans (sameKey_iff.mp hbc))

/-- The same key as one of two that are the same is the same as the other. -/
theorem sameKey_congr {a b : Scalar} (hab : a.sameKey b = true) (c : Scalar) : c.sameKey a = c.sameKey b := by
  rw [Bool.eq_iff_iff]
  exact ⟨fun h => sameKey_trans h hab, fun h => sameKey_trans h (sameKey_comm.symm.trans hab)⟩

theorem meaning_text (s : String) : (Scalar.text s).meaning = .inr (.inr (.text s)) := rfl

theorem eq_of_meaning {a b : Scalar} (h : a.meaning = .inr (.inr b)) : a = b := by
  grind [meaning]

/-- Texts are the same key when they are equal. -/
@[simp] theorem sameKey_text {a : Scalar} {s : String} : a.sameKey (.text s) = decide (a = .text s) := by
  rw [Bool.eq_iff_iff, sameKey_iff, decide_eq_true_iff, meaning_text]
  constructor
  · exact eq_of_meaning
  · rintro rfl
    rfl

end Scalar

/-! ## Setting a key -/

theorem lookup?_cons {key k : Scalar} {v : Value ι} {rest : List (Scalar × Value ι)} :
    lookup? key ((k, v) :: rest) = if k.sameKey key then some v else lookup? key rest := by
  simp only [lookup?, List.find?_cons]
  split <;> simp_all

theorem lookup?_eq_none_iff {key : Scalar} {entries : List (Scalar × Value ι)} :
    lookup? key entries = none ↔ ∀ e ∈ entries, e.1.sameKey key = false := by
  simp [lookup?]

theorem mem_of_lookup? {key : Scalar} {value : Value ι} {entries : List (Scalar × Value ι)}
    (h : lookup? key entries = some value) : ∃ e ∈ entries, e.2 = value := by
  obtain ⟨e, he, hvalue⟩ := Option.map_eq_some_iff.mp h
  exact ⟨e, List.mem_of_find?_eq_some he, hvalue⟩

theorem lookup?_congr {a b : Scalar} (h : a.sameKey b = true) (entries : List (Scalar × Value ι)) :
    lookup? a entries = lookup? b entries := by
  simp only [lookup?, Scalar.sameKey_congr h]

theorem lookup?_insertEntry (key : Scalar) (value : Value ι) (entries : List (Scalar × Value ι)) (q : Scalar) :
    lookup? q (insertEntry key value entries) = if key.sameKey q then some value else lookup? q entries := by
  induction entries with
  | nil => rw [insertEntry, lookup?_cons]
  | cons entry rest ih =>
    obtain ⟨k, v⟩ := entry
    rw [insertEntry]
    by_cases hk : k.sameKey key = true
    · rw [if_pos hk, lookup?_cons, lookup?_cons, Scalar.sameKey_comm (b := q), Scalar.sameKey_congr hk,
        Scalar.sameKey_comm]
      split <;> rfl
    · rw [if_neg hk, lookup?_cons, lookup?_cons, ih]
      by_cases hq : k.sameKey q = true
      · have hkey : ¬ key.sameKey q = true := fun h => hk (by
          rw [Scalar.sameKey_congr h]
          exact hq)
        rw [if_pos hq, if_neg hkey, if_pos hq]
      · rw [if_neg hq, if_neg hq]

theorem insertEntry_of_new {key : Scalar} {value : Value ι} {entries : List (Scalar × Value ι)}
    (h : ∀ e ∈ entries, e.1.sameKey key = false) : insertEntry key value entries = entries ++ [(key, value)] := by
  induction entries with
  | nil => rfl
  | cons e rest ih =>
    rw [insertEntry, if_neg (by simp [h e (.head _)]), ih fun r hr => h r (.tail _ hr)]
    rfl

/-- The value of an upper map, or of the lower one where there is none, laid over each other where there are both. -/
def overlay : Option (Value ι) → Option (Value ι) → Option (Value ι)
  | lower, none => lower
  | none, some upper => some upper
  | some lower, some upper => some (merge lower upper)

/-- No two entries have the same key. -/
def DistinctKeys (entries : List (Scalar × Value ι)) : Prop :=
  entries.Pairwise fun a b => a.1.sameKey b.1 = false

theorem lookup?_eq_none_of_distinct {key : Scalar} {entries : List (Scalar × Value ι)}
    (h : ∀ e ∈ entries, key.sameKey e.1 = false) {q : Scalar} (hq : key.sameKey q = true) :
    lookup? q entries = none := by
  rw [← lookup?_congr hq, lookup?_eq_none_iff]
  intro e he
  rw [Scalar.sameKey_comm]
  exact h e he

/-- **Merging merges the values of each key.** -/
theorem lookup?_mergeEntries {upper : List (Scalar × Value ι)} (h : DistinctKeys upper)
    (lower : List (Scalar × Value ι)) (q : Scalar) :
    lookup? q (mergeEntries lower upper) = overlay (lookup? q lower) (lookup? q upper) := by
  induction upper generalizing lower with
  | nil => rfl
  | cons entry rest ih =>
    obtain ⟨key, value⟩ := entry
    obtain ⟨hkey, hrest⟩ := List.pairwise_cons.mp h
    rw [mergeEntries, ih hrest, lookup?_insertEntry, lookup?_cons]
    by_cases hq : key.sameKey q = true
    · rw [if_pos hq, if_pos hq, lookup?_eq_none_of_distinct hkey hq, ← lookup?_congr hq lower]
      cases lookup? key lower <;> rfl
    · rw [if_neg hq, if_neg hq]

/-! ## The values of merged maps -/

/-- The value is a map. -/
def Value.IsMap : Value ι → Prop
  | .map .. => True
  | _ => False

/-- Laying a value over another one gives the value, or a map where the value is a map. -/
theorem merge_eq_or (lower upper : Value ι) : merge lower upper = upper ∨ (merge lower upper).IsMap ∧ upper.IsMap := by
  cases upper with
  | map mark entries => cases lower <;> simp [merge, Value.IsMap]
  | scalar | list | set | pairs | cycle => exact .inl (by simp [merge])

theorem mem_insertEntry {key : Scalar} {value : Value ι} {entries : List (Scalar × Value ι)} {e : Scalar × Value ι}
    (h : e ∈ insertEntry key value entries) :
    e ∈ entries ∨ e.2 = value ∧ (e.1 = key ∨ ∃ l ∈ entries, e.1 = l.1) := by
  induction entries with
  | nil =>
    obtain rfl : e = (key, value) := by simpa [insertEntry] using h
    exact .inr ⟨rfl, .inl rfl⟩
  | cons entry rest ih =>
    obtain ⟨k, v⟩ := entry
    rw [insertEntry] at h
    split at h
    · rcases List.mem_cons.mp h with rfl | h
      · exact .inr ⟨rfl, .inr ⟨(k, v), .head _, rfl⟩⟩
      · exact .inl (.tail _ h)
    · rcases List.mem_cons.mp h with rfl | h
      · exact .inl (.head _)
      · rcases ih h with h | ⟨hvalue, hkey | ⟨l, hl, hkey⟩⟩
        · exact .inl (.tail _ h)
        · exact .inr ⟨hvalue, .inl hkey⟩
        · exact .inr ⟨hvalue, .inr ⟨l, .tail _ hl, hkey⟩⟩

theorem exists_mem_insertEntry (key : Scalar) (value : Value ι) (entries : List (Scalar × Value ι)) :
    ∃ k, (k, value) ∈ insertEntry key value entries ∧ (k = key ∨ k.sameKey key = true) := by
  induction entries with
  | nil => exact ⟨key, by simp [insertEntry], .inl rfl⟩
  | cons entry rest ih =>
    obtain ⟨k, v⟩ := entry
    rw [insertEntry]
    by_cases hk : k.sameKey key = true
    · exact ⟨k, by simp [hk], .inr hk⟩
    · obtain ⟨k', hmem, hk'⟩ := ih
      exact ⟨k', by simp [hk, hmem], hk'⟩

theorem mem_insertEntry_of_ne {key : Scalar} {value : Value ι} {entries : List (Scalar × Value ι)}
    {e : Scalar × Value ι} (he : e ∈ entries) (hkey : e.1.sameKey key = false) : e ∈ insertEntry key value entries := by
  induction entries with
  | nil => cases he
  | cons entry rest ih =>
    obtain ⟨k, v⟩ := entry
    rw [insertEntry]
    split <;> grind

/-- A value of merged maps is one of the lower map or of the upper one, or it and an upper value are maps. -/
theorem value_of_mem_mergeEntries {lower upper : List (Scalar × Value ι)} {e : Scalar × Value ι}
    (h : e ∈ mergeEntries lower upper) :
    (∃ l ∈ lower, e.2 = l.2) ∨ (∃ u ∈ upper, e.2 = u.2) ∨ e.2.IsMap ∧ ∃ u ∈ upper, u.2.IsMap := by
  induction upper generalizing lower with
  | nil => exact .inl ⟨e, h, rfl⟩
  | cons entry rest ih =>
    obtain ⟨key, value⟩ := entry
    rw [mergeEntries] at h
    rcases ih h with ⟨l, hl, hle⟩ | ⟨u, hu, hue⟩ | ⟨hmap, u, hu, humap⟩
    · rcases mem_insertEntry hl with hl | ⟨hl, -⟩
      · exact .inl ⟨l, hl, hle⟩
      · refine .inr ?_
        rw [hle, hl]
        cases lookup? key lower with
        | none => exact .inl ⟨(key, value), .head _, rfl⟩
        | some old =>
          rcases merge_eq_or old value with heq | ⟨hmerged, hvalue⟩
          · exact .inl ⟨(key, value), .head _, heq⟩
          · exact .inr ⟨hmerged, (key, value), .head _, hvalue⟩
    · exact .inr (.inl ⟨u, .tail _ hu, hue⟩)
    · exact .inr (.inr ⟨hmap, u, .tail _ hu, humap⟩)

/-- A key of merged maps is one of the lower map or of the upper one. -/
theorem key_of_mem_mergeEntries {lower upper : List (Scalar × Value ι)} {e : Scalar × Value ι}
    (h : e ∈ mergeEntries lower upper) : (∃ l ∈ lower, e.1 = l.1) ∨ ∃ u ∈ upper, e.1 = u.1 := by
  induction upper generalizing lower with
  | nil => exact .inl ⟨e, h, rfl⟩
  | cons entry rest ih =>
    rw [mergeEntries] at h
    rcases ih h with ⟨l, hl, hle⟩ | ⟨u, hu, hue⟩
    · rcases mem_insertEntry hl with hl | ⟨-, hkey | ⟨k, hk, hkey⟩⟩
      · exact .inl ⟨l, hl, hle⟩
      · exact .inr ⟨entry, .head _, hle.trans hkey⟩
      · exact .inl ⟨k, hk, hle.trans hkey⟩
    · exact .inr ⟨u, .tail _ hu, hue⟩

/-- What has another key than every upper entry stays. -/
theorem mem_mergeEntries_of_ne {lower upper : List (Scalar × Value ι)} {e : Scalar × Value ι} (he : e ∈ lower)
    (h : ∀ u ∈ upper, e.1.sameKey u.1 = false) : e ∈ mergeEntries lower upper := by
  induction upper generalizing lower with
  | nil => exact he
  | cons entry rest ih =>
    rw [mergeEntries]
    exact ih (mem_insertEntry_of_ne he (h entry (.head _))) fun u hu => h u (.tail _ hu)

/-- Every upper value is a value of the merged maps, or it is a map and so is a value of the merged maps. -/
theorem mem_mergeEntries_of_upper {lower upper : List (Scalar × Value ι)} (h : DistinctKeys upper)
    {u : Scalar × Value ι} (hu : u ∈ upper) :
    ∃ e ∈ mergeEntries lower upper, e.2 = u.2 ∨ e.2.IsMap ∧ u.2.IsMap := by
  induction upper generalizing lower with
  | nil => cases hu
  | cons entry rest ih =>
    obtain ⟨key, value⟩ := entry
    obtain ⟨hkey, hrest⟩ := List.pairwise_cons.mp h
    have hmerged : mergeEntries lower ((key, value) :: rest) = mergeEntries
        (insertEntry key ((lookup? key lower).elim value fun old => merge old value) lower) rest := by
      rw [mergeEntries]
      cases lookup? key lower <;> rfl
    rw [hmerged]
    rcases List.mem_cons.mp hu with rfl | hu
    · obtain ⟨k, hmem, hk⟩ := exists_mem_insertEntry key
        ((lookup? key lower).elim value fun old => merge old value) lower
      have hne : ∀ r ∈ rest, k.sameKey r.1 = false := by
        intro r hr
        rcases hk with rfl | hk
        · exact hkey r hr
        · rw [Scalar.sameKey_comm, Scalar.sameKey_congr hk, Scalar.sameKey_comm]
          exact hkey r hr
      refine ⟨_, mem_mergeEntries_of_ne hmem hne, ?_⟩
      cases lookup? key lower with
      | none => exact .inl rfl
      | some old => exact merge_eq_or old value
    · exact ih hrest hu

end LayerLint.Yaml
