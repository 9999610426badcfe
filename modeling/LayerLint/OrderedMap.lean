/-!
# Maps that remember the order of insertion

An `OrderedMap` lists its entries with distinct keys. Setting a key that is present keeps its place
(`keys_insert_of_mem`); a new key goes to the end (`keys_insert_of_not_mem`).
-/

namespace LayerLint

variable {α β γ : Type} [DecidableEq α]

/-- Entries with distinct keys, in order of first insertion. -/
structure OrderedMap (α β : Type) [DecidableEq α] where
  /-- The entries in order. -/
  entries : List (α × β)
  nodup_keys : (entries.map Prod.fst).Nodup

namespace OrderedMap

/-- Sets the value of a key: in place where the key is present, at the end otherwise. -/
def insertEntry (key : α) (value : β) : List (α × β) → List (α × β)
  | [] => [(key, value)]
  | (k, v) :: rest => if k = key then (k, value) :: rest else (k, v) :: insertEntry key value rest

theorem mem_keys_insertEntry {key : α} {value : β} {entries : List (α × β)} {k : α} :
    k ∈ (insertEntry key value entries).map Prod.fst ↔ k = key ∨ k ∈ entries.map Prod.fst := by
  induction entries with
  | nil => simp [insertEntry]
  | cons e rest ih =>
    simp only [insertEntry]
    split
    · rename_i h; subst h; simp
    · rw [List.map_cons, List.mem_cons, ih, List.map_cons, List.mem_cons]
      exact or_left_comm

theorem nodup_insertEntry {key : α} {value : β} {entries : List (α × β)} (h : (entries.map Prod.fst).Nodup) :
    ((insertEntry key value entries).map Prod.fst).Nodup := by
  induction entries with
  | nil => simp [insertEntry]
  | cons e rest ih =>
    rw [List.map_cons, List.nodup_cons] at h
    simp only [insertEntry]
    split
    · exact List.nodup_cons.2 h
    · rename_i hk
      refine List.nodup_cons.2 ⟨fun hm => ?_, ih h.2⟩
      rcases mem_keys_insertEntry.1 hm with hkey | hrest
      · exact hk hkey
      · exact h.1 hrest

/-- The map without entries. -/
def empty : OrderedMap α β := ⟨[], by simp⟩

instance : Inhabited (OrderedMap α β) := ⟨empty⟩

/-- Sets the value of a key. -/
def insert (m : OrderedMap α β) (key : α) (value : β) : OrderedMap α β :=
  ⟨insertEntry key value m.entries, nodup_insertEntry m.nodup_keys⟩

/-- The map of a list of entries; of several values for one key the last counts. -/
def ofList (entries : List (α × β)) : OrderedMap α β :=
  entries.foldl (fun m e => m.insert e.1 e.2) empty

/-- The keys in order. -/
def keys (m : OrderedMap α β) : List α := m.entries.map Prod.fst

/-- The value of a key, if it is present. -/
def find? (m : OrderedMap α β) (key : α) : Option β := m.entries.lookup key

/-- The key has a value. -/
def contains (m : OrderedMap α β) (key : α) : Bool := (m.find? key).isSome

/-- There is no entry. -/
def isEmpty (m : OrderedMap α β) : Bool := m.entries.isEmpty

/-- The values changed one by one. -/
def mapValues (m : OrderedMap α β) (f : β → γ) : OrderedMap α γ :=
  ⟨m.entries.map (fun e => (e.1, f e.2)), by
    have : (m.entries.map (fun e => (e.1, f e.2))).map Prod.fst = m.entries.map Prod.fst := by simp
    rw [this]; exact m.nodup_keys⟩

@[simp] theorem keys_empty : (empty : OrderedMap α β).keys = [] := rfl

/-- A key without a value is none of the keys. -/
theorem find?_eq_none_iff {m : OrderedMap α β} {key : α} : m.find? key = none ↔ key ∉ m.keys := by
  simp only [find?, keys, List.lookup_eq_none_iff, bne_iff_ne, List.mem_map, not_exists, not_and, ne_comm]

theorem insertEntry_keys_of_mem {key : α} {value : β} {entries : List (α × β)} (h : key ∈ entries.map Prod.fst) :
    (insertEntry key value entries).map Prod.fst = entries.map Prod.fst := by
  induction entries with
  | nil => simp at h
  | cons e rest ih =>
    simp only [insertEntry]
    split
    · simp
    · rename_i hk
      rw [List.map_cons, List.mem_cons] at h
      rw [List.map_cons, List.map_cons, ih (h.resolve_left (fun he => hk he.symm))]

theorem insertEntry_of_not_mem {key : α} {value : β} {entries : List (α × β)} (h : key ∉ entries.map Prod.fst) :
    insertEntry key value entries = entries ++ [(key, value)] := by
  induction entries with
  | nil => rfl
  | cons e rest ih =>
    rw [List.map_cons, List.mem_cons, not_or] at h
    simp [insertEntry, Ne.symm h.1, ih h.2]

theorem keys_insert_of_mem {m : OrderedMap α β} {key : α} {value : β} (h : key ∈ m.keys) :
    (m.insert key value).keys = m.keys := insertEntry_keys_of_mem h

theorem keys_insert_of_not_mem {m : OrderedMap α β} {key : α} {value : β} (h : key ∉ m.keys) :
    (m.insert key value).keys = m.keys ++ [key] := by
  simp [insert, keys, insertEntry_of_not_mem h]

end OrderedMap

end LayerLint
