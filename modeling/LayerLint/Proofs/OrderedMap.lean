import LayerLint.OrderedMap
import Mathlib.Data.List.Nodup

/-!
# Maps with a key set, left out or renamed

`insert` sets a key and changes nothing else (`find?_insert`). `erase` leaves a key out, and `Renames` says that a map
has another key in the place of one, with the same value. At any key but the new one these two maps are the same
(`Renames.find?_eq`), and without the new one they are equal (`Renames.erase_eq`).
-/

namespace LayerLint.OrderedMap

variable {α β : Type} [DecidableEq α]

instance [DecidableEq β] : DecidableEq (OrderedMap α β) := fun m m' =>
  decidable_of_iff (m.entries = m'.entries) ⟨fun h => by cases m; cases m'; cases h; rfl, congrArg _⟩

/-- The map without a key. -/
def erase (m : OrderedMap α β) (key : α) : OrderedMap α β :=
  ⟨m.entries.filter fun entry => entry.1 ≠ key, m.nodup_keys.sublist (List.filter_sublist.map _)⟩

/-- A map has a new key in the place of another, with the same value. -/
structure Renames (m renamed : OrderedMap α β) (key new : α) : Prop where
  mem : key ∈ m.keys
  entries : renamed.entries = m.entries.map fun entry => if entry.1 = key then (new, entry.2) else entry

variable {m renamed : OrderedMap α β} {key new other : α} {value : β}

theorem contains_iff : m.contains key = true ↔ key ∈ m.keys := by
  rw [contains, ← Option.ne_none_iff_isSome, ne_eq, find?_eq_none_iff, not_not]

theorem lookup_insertEntry (key other : α) (value : β) : ∀ entries : List (α × β),
    (insertEntry key value entries).lookup other = if other = key then some value else entries.lookup other
  | [] => by
    by_cases hother : other = key
    · simp [insertEntry, hother]
    · simp [insertEntry, hother, List.lookup_cons, beq_false_of_ne hother]
  | (first, old) :: entries => by
    have ih := lookup_insertEntry key other value entries
    rw [insertEntry]
    by_cases hfirst : first = key
    · rw [if_pos hfirst, List.lookup_cons, List.lookup_cons, hfirst]
      by_cases hother : other = key
      · simp [hother]
      · simp [hother, beq_false_of_ne hother]
    · rw [if_neg hfirst, List.lookup_cons, List.lookup_cons, ih]
      by_cases hother : other = first
      · simp [hother, hfirst]
      · rw [beq_false_of_ne hother]

/-- **Setting a key changes nothing else.** -/
theorem find?_insert (m : OrderedMap α β) (key other : α) (value : β) :
    (m.insert key value).find? other = if other = key then some value else m.find? other :=
  lookup_insertEntry key other value m.entries

/-- The entries are the keys with their values. -/
theorem mem_entries_iff : (key, value) ∈ m.entries ↔ m.find? key = some value := by
  obtain ⟨entries, hkeys⟩ := m
  rw [find?]
  induction entries with
  | nil => simp
  | cons e entries ih =>
    obtain ⟨first, old⟩ := e
    obtain ⟨hnew, hrest⟩ := List.nodup_cons.mp hkeys
    rw [List.mem_cons, List.lookup_cons, Prod.mk.injEq]
    by_cases hfirst : key = first
    · have hnot : (first, value) ∉ entries := fun hmem => hnew (List.mem_map.mpr ⟨_, hmem, rfl⟩)
      simp [hfirst, hnot, eq_comm]
    · rw [beq_false_of_ne hfirst, ← ih hrest]
      simp [hfirst]

theorem mem_keys_of_find? (h : m.find? key = some value) : key ∈ m.keys := by
  rw [← contains_iff, contains, h]
  rfl

/-- The map of its own entries is the map. -/
theorem ofList_entries (m : OrderedMap α β) : ofList m.entries = m := by
  suffices happend : ∀ (rest : List (α × β)) (before : OrderedMap α β),
      ((before.entries ++ rest).map Prod.fst).Nodup →
      (rest.foldl (fun m e => m.insert e.1 e.2) before).entries = before.entries ++ rest by
    obtain ⟨entries, hnodup⟩ := m
    have hentries := happend entries empty hnodup
    rw [ofList]
    generalize entries.foldl (fun m e => m.insert e.1 e.2) empty = filled at hentries
    obtain ⟨entries', hnodup'⟩ := filled
    obtain rfl : entries' = entries := hentries
    rfl
  intro rest
  induction rest with
  | nil => exact fun before _ => (List.append_nil before.entries).symm
  | cons e rest ih =>
    intro before hnodup
    have hnew : e.1 ∉ before.entries.map Prod.fst := by
      rw [List.map_append, List.map_cons] at hnodup
      exact fun hmem => (List.nodup_append.mp hnodup).2.2 e.1 hmem e.1 List.mem_cons_self rfl
    have hinsert : (before.insert e.1 e.2).entries = before.entries ++ [e] := insertEntry_of_not_mem hnew
    rw [List.foldl_cons, ih _ (by rwa [hinsert, List.append_assoc]), hinsert, List.append_assoc]
    rfl

/-- A key has one entry. -/
theorem filter_entries_eq (h : (key, value) ∈ m.entries) :
    (m.entries.filter fun entry => entry.1 = key) = [(key, value)] := by
  obtain ⟨before, after, hentries⟩ := List.append_of_mem h
  have hnodup := m.nodup_keys
  rw [hentries, List.map_append, List.map_cons] at hnodup
  have hothers : ∀ {entries : List (α × β)}, key ∉ entries.map Prod.fst →
      (entries.filter fun entry => entry.1 = key) = [] := by
    intro entries hnot
    rw [List.filter_eq_nil_iff]
    intro entry hentry heq
    exact hnot (List.mem_map.mpr ⟨entry, hentry, of_decide_eq_true heq⟩)
  obtain ⟨-, hafter, hapart⟩ := List.nodup_append.mp hnodup
  rw [hentries, List.filter_append, List.filter_cons_of_pos (by simp),
    hothers (List.nodup_cons.mp hafter).1, hothers fun hmem => hapart key hmem key List.mem_cons_self rfl]
  rfl

theorem keys_erase : (m.erase key).keys = m.keys.filter (· ≠ key) := by
  rw [keys, keys, erase, List.filter_map]
  rfl

theorem Renames.keys_eq (h : m.Renames renamed key new) :
    renamed.keys = m.keys.map fun other => if other = key then new else other := by
  rw [keys, keys, h.entries, List.map_map, List.map_map]
  refine List.map_congr_left fun entry _ => ?_
  dsimp only [Function.comp_apply]
  split <;> rfl

/-- The new key was none before. -/
theorem Renames.new_not_mem (h : m.Renames renamed key new) (hne : new ≠ key) : new ∉ m.keys := by
  intro hmem
  have hnodup : (m.keys.map fun other => if other = key then new else other).Nodup := h.keys_eq ▸ renamed.nodup_keys
  have heq := List.inj_on_of_nodup_map hnodup hmem h.mem (by simp)
  exact hne heq

/-- **Without the new key** the renamed map is the one without the old key. -/
theorem Renames.erase_eq (h : m.Renames renamed key new) (hne : new ≠ key) : renamed.erase new = m.erase key := by
  have hentries : (renamed.entries.filter fun entry => entry.1 ≠ new) =
      m.entries.filter fun entry => entry.1 ≠ key := by
    have hkept : ∀ entry ∈ m.entries, decide ((if entry.1 = key then (new, entry.2) else entry).1 ≠ new) =
        decide (entry.1 ≠ key) := by
      intro entry hentry
      have hold : entry.1 ≠ new := fun heq => h.new_not_mem hne (heq ▸ List.mem_map_of_mem hentry)
      by_cases hkey : entry.1 = key
      · simp [hkey]
      · simp [hkey, hold]
    have hsame : ∀ entry ∈ m.entries.filter fun entry => entry.1 ≠ key,
        (if entry.1 = key then (new, entry.2) else entry) = id entry := by
      intro entry hentry
      rw [if_neg (of_decide_eq_true (List.mem_filter.mp hentry).2), id]
    rw [h.entries, List.filter_map]
    exact (congrArg (List.map _) (List.filter_congr hkept)).trans ((List.map_congr_left hsame).trans (List.map_id _))
  unfold erase
  congr 1

theorem lookup_renamed (hother : other ≠ new) : ∀ entries : List (α × β),
    (entries.map fun entry => if entry.1 = key then (new, entry.2) else entry).lookup other =
      (entries.filter fun entry => entry.1 ≠ key).lookup other
  | [] => rfl
  | (first, value) :: entries => by
    have ih := lookup_renamed hother entries
    by_cases hfirst : first = key
    · rw [List.map_cons, if_pos hfirst, List.filter_cons_of_neg (by simpa using hfirst), List.lookup_cons,
        beq_false_of_ne hother]
      exact ih
    · rw [List.map_cons, if_neg hfirst, List.filter_cons_of_pos (by simpa using hfirst), List.lookup_cons,
        List.lookup_cons, ih]

/-- **At any key but the new one** the renamed map is the one without the old key. -/
theorem Renames.find?_eq (h : m.Renames renamed key new) (hother : other ≠ new) :
    renamed.find? other = (m.erase key).find? other := by
  rw [find?, h.entries]
  exact lookup_renamed hother m.entries

end LayerLint.OrderedMap
