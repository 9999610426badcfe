import LayerLint.Proofs.Yaml.Keys

/-!
# What merging gives

Merging told for the whole map, and for every path of keys that leads into it. Values are data, so merging two of them
makes a third one and leaves both as they are.

- The entries of merged maps are those of the lower map in their order, with the upper value of their key laid over
  theirs, and then the upper entries with new keys in theirs (`mergeEntries_eq`).
- At a path the merged value is the merge of two maps, or the upper value, or the lower one (`MergedPathwise`).
- Entries absorb others when each of these has a key of theirs and a value that changes nothing
  (`mergeEntries_eq_self_iff`). So a map absorbs itself, and what it was merged with (`merge_self`, `merge_merge`).
-/

namespace LayerLint.Yaml

variable {ι : Type} {lower upper entries : List (Scalar × Value ι)} {key : Scalar} {value : Value ι}

/-! ## Keys of their own entries -/

/-- Among distinct keys a lookup finds each entry that has the key. -/
theorem lookup?_of_mem (h : DistinctKeys entries) {e : Scalar × Value ι} (he : e ∈ entries)
    (hkey : e.1.sameKey key = true) : lookup? key entries = some e.2 := by
  induction entries with
  | nil => cases he
  | cons entry rest ih =>
    obtain ⟨k, v⟩ := entry
    obtain ⟨hk, hrest⟩ := List.pairwise_cons.mp h
    rw [lookup?_cons]
    rcases List.mem_cons.mp he with rfl | he
    · rw [if_pos hkey]
    · have hne : ¬ k.sameKey key = true := by
        rw [← Scalar.sameKey_congr hkey, hk e he]
        exact Bool.false_ne_true
      rw [if_neg hne]
      exact ih hrest he

/-- An entry is found under its own key. -/
theorem lookup?_self (h : DistinctKeys entries) {e : Scalar × Value ι} (he : e ∈ entries) :
    lookup? e.1 entries = some e.2 :=
  lookup?_of_mem h he (Scalar.sameKey_self e.1)

/-! ## Merged entries -/

/-- The entry with the upper value of its key, if there is one, laid over its own. -/
def laidOn (upper : List (Scalar × Value ι)) (e : Scalar × Value ι) : Scalar × Value ι :=
  (e.1, (lookup? e.1 upper).elim e.2 (merge e.2))

/-- The upper entries whose keys are not among the lower ones. -/
def newEntries (lower upper : List (Scalar × Value ι)) : List (Scalar × Value ι) :=
  upper.filter fun u => (lookup? u.1 lower).isNone

theorem laidOn_cons_of_ne {e : Scalar × Value ι} (h : key.sameKey e.1 = false) :
    laidOn ((key, value) :: upper) e = laidOn upper e := by
  rw [laidOn, laidOn, lookup?_cons, if_neg (Bool.eq_false_iff.mp h)]

theorem laidOn_of_new {e : Scalar × Value ι} (h : lookup? e.1 upper = none) : laidOn upper e = e := by
  rw [laidOn, h]
  rfl

/-- Setting a key that is not new does not make other keys old. -/
theorem newEntries_insertEntry (h : ∀ u ∈ upper, key.sameKey u.1 = false) :
    newEntries (insertEntry key value lower) upper = newEntries lower upper := by
  refine List.filter_congr fun u hu => ?_
  rw [lookup?_insertEntry, if_neg (Bool.eq_false_iff.mp (h u hu))]

theorem insertEntry_of_lookup? (h : DistinctKeys entries) {old : Value ι} (hold : lookup? key entries = some old) :
    insertEntry key value entries = entries.map fun e => if e.1.sameKey key then (e.1, value) else e := by
  induction entries with
  | nil => cases hold
  | cons entry rest ih =>
    obtain ⟨k, v⟩ := entry
    obtain ⟨hk, hrest⟩ := List.pairwise_cons.mp h
    rw [insertEntry, List.map_cons]
    by_cases hkey : k.sameKey key = true
    · have hsame : ∀ e ∈ rest, ¬ e.1.sameKey key = true := by
        intro e he
        rw [Scalar.sameKey_comm, Scalar.sameKey_comm (a := key), ← Scalar.sameKey_congr hkey, Scalar.sameKey_comm,
          hk e he]
        exact Bool.false_ne_true
      rw [if_pos hkey, if_pos hkey, List.map_congr_left fun e he => if_neg (hsame e he), List.map_id']
    · rw [lookup?_cons, if_neg hkey] at hold
      rw [if_neg hkey, if_neg hkey, ih hrest hold]

/-- **The entries of merged maps: the lower ones in their order, and then those with new keys.** -/
theorem mergeEntries_eq (hlower : DistinctKeys lower) (hupper : DistinctKeys upper) :
    mergeEntries lower upper = lower.map (laidOn upper) ++ newEntries lower upper := by
  induction upper generalizing lower with
  | nil =>
    have hid : lower.map (laidOn []) = lower := by
      rw [List.map_congr_left fun e _ => laidOn_of_new rfl, List.map_id']
    rw [mergeEntries, hid]
    exact (List.append_nil lower).symm
  | cons entry rest ih =>
    obtain ⟨key, value⟩ := entry
    obtain ⟨hkey, hrest⟩ := List.pairwise_cons.mp hupper
    have hnone : ∀ {q : Scalar}, key.sameKey q = true → lookup? q rest = none := lookup?_eq_none_of_distinct hkey
    rw [mergeEntries, ih (distinctKeys_insertEntry hlower) hrest, newEntries_insertEntry hkey]
    cases hold : lookup? key lower with
    | none =>
      have hnew := lookup?_eq_none_iff.mp hold
      have hlaid : lower.map (laidOn ((key, value) :: rest)) = lower.map (laidOn rest) :=
        List.map_congr_left fun e he => laidOn_cons_of_ne (Scalar.sameKey_comm.trans (hnew e he))
      have hentry : laidOn rest (key, value) = (key, value) :=
        laidOn_of_new (lookup?_eq_none_iff.mpr fun e he => Scalar.sameKey_comm.trans (hkey e he))
      have hcons : newEntries lower ((key, value) :: rest) = (key, value) :: newEntries lower rest :=
        List.filter_cons_of_pos (by simp [hold])
      rw [insertEntry_of_new hnew, List.map_append, hlaid, hcons, List.append_assoc, List.map_singleton, hentry]
      rfl
    | some old =>
      have hcons : newEntries lower ((key, value) :: rest) = newEntries lower rest :=
        List.filter_cons_of_neg (by simp [hold])
      have hlaid : ∀ e ∈ lower, laidOn rest (if e.1.sameKey key then (e.1, merge old value) else e) =
          laidOn ((key, value) :: rest) e := by
        intro e he
        by_cases hsame : e.1.sameKey key = true
        · obtain rfl : old = e.2 := Option.some.inj (hold.symm.trans (lookup?_of_mem hlower he hsame))
          have hsame' : key.sameKey e.1 = true := Scalar.sameKey_comm.trans hsame
          rw [if_pos hsame, laidOn, laidOn, hnone hsame', lookup?_cons, if_pos hsame']
          rfl
        · rw [if_neg hsame, laidOn_cons_of_ne]
          rw [Scalar.sameKey_comm]
          exact Bool.eq_false_iff.mpr hsame
      rw [insertEntry_of_lookup? hlower hold, List.map_map, hcons]
      exact congrArg (· ++ _) (List.map_congr_left hlaid)

/-- One and true are one key, which keeps its spelling. -/
example : mergeEntries [(.int 1, .text "a"), (.int 2, .text "b")] [(.int 3, .text "c"), (.bool true, .text "d")] =
    [(.int 1, .text "d"), (.int 2, .text "b"), (.int 3, .text "c")] := by
  rfl

/-- Entries laid over nothing stay as they are. -/
theorem mergeEntries_nil (h : DistinctKeys upper) : mergeEntries [] upper = upper := by
  rw [mergeEntries_eq .nil h]
  exact List.filter_eq_self.mpr fun _ _ => rfl

theorem distinctKeys_mergeEntries (h : DistinctKeys lower) : DistinctKeys (mergeEntries lower upper) := by
  induction upper generalizing lower with
  | nil => exact h
  | cons entry rest ih =>
    rw [mergeEntries]
    exact ih (distinctKeys_insertEntry h)

/-! ## Entries that change nothing -/

theorem insertEntry_self (h : lookup? key entries = some value) (hdistinct : DistinctKeys entries) :
    insertEntry key value entries = entries := by
  rw [insertEntry_of_lookup? hdistinct h]
  refine (List.map_congr_left fun e he => ?_).trans (List.map_id' entries)
  split
  · rename_i hkey
    rw [Option.some.inj (h.symm.trans (lookup?_of_mem hdistinct he hkey))]
  · rfl

/-- **Entries absorb those that have a key of theirs and a value that changes nothing there, and no others.** -/
theorem mergeEntries_eq_self_iff (hlower : DistinctKeys lower) (hupper : DistinctKeys upper) :
    mergeEntries lower upper = lower ↔ ∀ u ∈ upper, ∃ v, lookup? u.1 lower = some v ∧ merge v u.2 = v := by
  constructor
  · intro h u hu
    -- A new key would make the merged entries more than the lower ones.
    have hnew : newEntries lower upper = [] := by
      have hlength := congrArg List.length ((mergeEntries_eq hlower hupper).symm.trans h)
      rw [List.length_append, List.length_map] at hlength
      exact List.eq_nil_of_length_eq_zero (by omega)
    have hsome : lookup? u.1 lower ≠ none := by
      intro hnone
      exact List.filter_eq_nil_iff.mp hnew u hu (by rw [hnone]; rfl)
    obtain ⟨v, hv⟩ := Option.ne_none_iff_exists'.mp hsome
    refine ⟨v, hv, Option.some.inj ?_⟩
    calc some (merge v u.2) = overlay (lookup? u.1 lower) (lookup? u.1 upper) := by
          rw [hv, lookup?_self hupper hu]
          rfl
      _ = lookup? u.1 (mergeEntries lower upper) := (lookup?_mergeEntries hupper lower u.1).symm
      _ = some v := by rw [h, hv]
  · intro h
    clear hupper
    induction upper with
    | nil => rfl
    | cons entry rest ih =>
      obtain ⟨key, value⟩ := entry
      obtain ⟨v, hv, hmerge⟩ := h (key, value) (.head _)
      have hinsert : insertEntry key (merge v value) lower = lower := by
        rw [hmerge]
        exact insertEntry_self hv hlower
      rw [mergeEntries, hv]
      exact (congrArg (mergeEntries · rest) hinsert).trans (ih fun u hu => h u (.tail _ hu))

theorem merge_of_not_isMap {low high : Value ι} (h : ¬ (low.IsMap ∧ high.IsMap)) : merge low high = high := by
  cases high with
  | map mark upper =>
    cases low with
    | map mark' lower => exact absurd ⟨trivial, trivial⟩ h
    | scalar | list | set | pairs | cycle => simp only [merge]
  | scalar | list | set | pairs | cycle => simp only [merge]

/-- **A value merged with itself is itself.** -/
theorem merge_self {value : Value ι} (h : value.Proper) : merge value value = value := by
  induction h with
  | other h => exact merge_of_not_isMap fun hmaps => h hmaps.1
  | @map mark entries distinct values ih =>
    rw [merge, (mergeEntries_eq_self_iff distinct distinct).mpr fun e he => ⟨e.2, lookup?_self distinct he, ih e he⟩]

/-- **Merging once more changes nothing.** -/
theorem merge_merge {low high : Value ι} (hlow : low.Proper) (hhigh : high.Proper) :
    merge (merge low high) high = merge low high := by
  induction hhigh generalizing low with
  | other h => rw [merge_of_not_isMap fun hmaps => h hmaps.2, merge_of_not_isMap fun hmaps => h hmaps.2]
  | @map mark upper distinct values ih =>
    cases hlow with
    | other hlow =>
      rw [merge_of_not_isMap fun hmaps => hlow hmaps.1]
      exact merge_self (.map distinct values)
    | @map mark' lower hdistinct hvalues =>
      rw [merge, merge, Value.map.injEq, mergeEntries_eq_self_iff (distinctKeys_mergeEntries hdistinct) distinct,
        and_iff_right rfl]
      intro u hu
      rw [lookup?_mergeEntries distinct, lookup?_self distinct hu]
      cases hold : lookup? u.1 lower with
      | none => exact ⟨u.2, rfl, merge_self (values u hu)⟩
      | some old =>
        obtain ⟨l, hl, rfl⟩ := mem_of_lookup? hold
        exact ⟨merge l.2 u.2, rfl, ih u hu (hvalues l hl)⟩

/-! ## Paths -/

/-- The value that a path of keys leads to, from map to map. -/
def Value.at? : List Scalar → Value ι → Option (Value ι)
  | [], value => some value
  | key :: rest, .map _ entries => (lookup? key entries).bind (Value.at? rest)
  | _ :: _, _ => none

@[simp] theorem Value.at?_nil (value : Value ι) : value.at? [] = some value := by
  rw [Value.at?]

@[simp] theorem Value.at?_cons_map (key : Scalar) (rest : List Scalar) (mark : ι) :
    (Value.map mark entries).at? (key :: rest) = (lookup? key entries).bind (Value.at? rest) := by
  rw [Value.at?]

theorem Value.at?_cons_of_not_isMap {value : Value ι} (h : ¬ value.IsMap) (key : Scalar) (rest : List Scalar) :
    value.at? (key :: rest) = none := by
  cases value with
  | map => exact absurd trivial h
  | scalar | list | set | pairs | cycle => simp only [Value.at?]

theorem Value.isMap_iff {value : Value ι} : value.IsMap ↔ ∃ mark entries, value = .map mark entries := by
  cases value <;> simp [Value.IsMap]

/-- A path of one key and more leads through a map. -/
theorem Value.isMap_of_at?_cons {value v : Value ι} {rest : List Scalar} (h : value.at? (key :: rest) = some v) :
    value.IsMap := by
  by_contra hmap
  rw [Value.at?_cons_of_not_isMap hmap] at h
  cases h

theorem Value.Proper.at? {value v : Value ι} (h : value.Proper) {path : List Scalar} (hv : value.at? path = some v) :
    v.Proper := by
  induction path generalizing value with
  | nil =>
    rw [Value.at?_nil] at hv
    exact Option.some.inj hv ▸ h
  | cons key rest ih =>
    cases h with
    | other h => exact absurd (Value.isMap_of_at?_cons hv) h
    | map distinct values =>
      rw [Value.at?_cons_map] at hv
      obtain ⟨x, hx, hv⟩ := Option.bind_eq_some_iff.mp hv
      obtain ⟨e, he, rfl⟩ := mem_of_lookup? hx
      exact ih (values e he) hv

/-- The upper value has a value at the path, and it takes the place of what the lower one has there: they are not
both maps. -/
def ReplacedAt (low high : Value ι) (path : List Scalar) : Prop :=
  ∃ v, high.at? path = some v ∧ ¬ (v.IsMap ∧ ∃ w, low.at? path = some w ∧ w.IsMap)

/-- At every path the merged value is the merge of two maps, the upper value where the path is replaced, or the lower
value. -/
structure MergedPathwise (low high merged : Value ι) : Prop where
  /-- Two maps are merged. -/
  maps : ∀ {path : List Scalar} {m m' : ι} {e e' : List (Scalar × Value ι)}, low.at? path = some (.map m e) →
    high.at? path = some (.map m' e') → merged.at? path = some (merge (.map m e) (.map m' e'))
  /-- The lower entries of two maps keep their places and their keys, and the upper ones with new keys follow in
  their order. -/
  entries : ∀ {path : List Scalar} {m m' : ι} {e e' : List (Scalar × Value ι)}, low.at? path = some (.map m e) →
    high.at? path = some (.map m' e') → merged.at? path = some (.map m (e.map (laidOn e') ++ newEntries e e'))
  /-- A value that replaces another one counts there and below. -/
  replaced : ∀ {above path : List Scalar}, above <+: path → ReplacedAt low high above →
    merged.at? path = high.at? path
  /-- Where nothing is replaced and there is no upper value the lower one stays. -/
  kept : ∀ {path : List Scalar}, (∀ above, above <+: path → ¬ ReplacedAt low high above) →
    high.at? path = none → merged.at? path = low.at? path

section Step

variable {low high old new : Value ι} {mark mark' : ι} {rest path : List Scalar}

theorem merge_at?_cons (h : DistinctKeys upper) (mark mark' : ι) (key : Scalar) (rest : List Scalar) :
    (merge (.map mark lower) (.map mark' upper)).at? (key :: rest) =
      (overlay (lookup? key lower) (lookup? key upper)).bind (Value.at? rest) := by
  rw [merge, Value.at?_cons_map, lookup?_mergeEntries h]

theorem replacedAt_nil_iff : ReplacedAt low high [] ↔ ¬ (low.IsMap ∧ high.IsMap) := by
  simp [ReplacedAt, and_comm]

/-- Below a key of both maps the values of the key decide what is replaced. -/
theorem replacedAt_cons_iff (hold : lookup? key lower = some old) (hnew : lookup? key upper = some new) :
    ReplacedAt (.map mark lower) (.map mark' upper) (key :: rest) ↔ ReplacedAt old new rest := by
  simp [ReplacedAt, hold, hnew]

/-- **Two maps at a path are merged.** -/
theorem merge_at?_of_maps {m m' : ι} {e e' : List (Scalar × Value ι)} (hhigh : high.Proper)
    (hlow : low.at? path = some (.map m e)) (hup : high.at? path = some (.map m' e')) :
    (merge low high).at? path = some (merge (.map m e) (.map m' e')) := by
  induction path generalizing low high with
  | nil =>
    rw [Value.at?_nil] at hlow hup ⊢
    rw [Option.some.inj hlow, Option.some.inj hup]
  | cons key rest ih =>
    obtain ⟨mark, lower, rfl⟩ := Value.isMap_iff.mp (Value.isMap_of_at?_cons hlow)
    obtain ⟨mark', upper, rfl⟩ := Value.isMap_iff.mp (Value.isMap_of_at?_cons hup)
    cases hhigh with
    | other h => exact absurd trivial h
    | map distinct values =>
      rw [Value.at?_cons_map] at hlow hup
      obtain ⟨old, hold, hlow⟩ := Option.bind_eq_some_iff.mp hlow
      obtain ⟨new, hnew, hup⟩ := Option.bind_eq_some_iff.mp hup
      obtain ⟨u, hu, rfl⟩ := mem_of_lookup? hnew
      rw [merge_at?_cons distinct, hold, hnew]
      exact ih (values u hu) hlow hup

/-- **Below a value that replaces another the upper values count.** -/
theorem merge_at?_of_replaced {above : List Scalar} (hhigh : high.Proper) (h : ReplacedAt low high above) :
    (merge low high).at? (above ++ path) = high.at? (above ++ path) := by
  induction above generalizing low high with
  | nil => rw [merge_of_not_isMap (replacedAt_nil_iff.mp h)]
  | cons key rest ih =>
    by_cases hmaps : low.IsMap ∧ high.IsMap
    · obtain ⟨mark, lower, rfl⟩ := Value.isMap_iff.mp hmaps.1
      obtain ⟨mark', upper, rfl⟩ := Value.isMap_iff.mp hmaps.2
      cases hhigh with
      | other h => exact absurd trivial h
      | map distinct values =>
        have ⟨_, hv, _⟩ := h
        rw [Value.at?_cons_map] at hv
        obtain ⟨new, hnew, -⟩ := Option.bind_eq_some_iff.mp hv
        rw [List.cons_append, merge_at?_cons distinct, Value.at?_cons_map, hnew]
        cases hold : lookup? key lower with
        | none => rfl
        | some old =>
          obtain ⟨u, hu, rfl⟩ := mem_of_lookup? hnew
          exact ih (values u hu) ((replacedAt_cons_iff hold hnew).mp h)
    · rw [merge_of_not_isMap hmaps]

/-- **Where nothing is replaced and nothing is above, the lower value stays.** -/
theorem merge_at?_of_kept (hhigh : high.Proper) (h : ∀ above, above <+: path → ¬ ReplacedAt low high above)
    (hnone : high.at? path = none) : (merge low high).at? path = low.at? path := by
  induction path generalizing low high with
  | nil => cases hnone
  | cons key rest ih =>
    obtain ⟨hlow, hmap⟩ := not_not.mp (mt replacedAt_nil_iff.mpr (h [] List.nil_prefix))
    obtain ⟨mark, lower, rfl⟩ := Value.isMap_iff.mp hlow
    obtain ⟨mark', upper, rfl⟩ := Value.isMap_iff.mp hmap
    cases hhigh with
    | other h => exact absurd trivial h
    | map distinct values =>
      rw [merge_at?_cons distinct, Value.at?_cons_map]
      cases hnew : lookup? key upper with
      | none => rfl
      | some new =>
        cases hold : lookup? key lower with
        | none =>
          have hreplaced : ReplacedAt (.map mark lower) (.map mark' upper) [key] := by
            simp [ReplacedAt, hnew, hold]
          exact absurd hreplaced (h [key] ((List.prefix_cons_inj key).mpr List.nil_prefix))
        | some old =>
          obtain ⟨u, hu, rfl⟩ := mem_of_lookup? hnew
          refine ih (values u hu) (fun above habove hreplaced => ?_) (by simpa [hnew] using hnone)
          exact h (key :: above) ((List.prefix_cons_inj key).mpr habove)
            ((replacedAt_cons_iff hold hnew).mpr hreplaced)

end Step

theorem mergedPathwise_merge {low high : Value ι} (hlow : low.Proper) (hhigh : high.Proper) :
    MergedPathwise low high (merge low high) where
  maps := merge_at?_of_maps hhigh
  entries {path m m' e e'} hmap hmap' := by
    rw [merge_at?_of_maps hhigh hmap hmap', merge]
    cases hlow.at? hmap with
    | other h => exact absurd trivial h
    | map distinct =>
      cases hhigh.at? hmap' with
      | other h => exact absurd trivial h
      | map distinct' => rw [mergeEntries_eq distinct distinct']
  replaced {above path} habove h := by
    obtain ⟨rest, rfl⟩ := habove
    exact merge_at?_of_replaced hhigh h
  kept := merge_at?_of_kept hhigh

/-- **Merging maps is told path by path, keeps the order of keys, and changes nothing where there is nothing new.** -/
theorem merge_pathwise {base override : Value ι} (hmap : base.IsMap) (hbase : base.Proper)
    (hoverride : override.Proper) :
    MergedPathwise base override (merge base override) ∧
    (∀ mark, merge base (.map mark []) = base) ∧
    merge base base = base ∧
    merge (merge base override) override = merge base override := by
  refine ⟨mergedPathwise_merge hbase hoverride, fun mark => ?_, merge_self hbase, merge_merge hbase hoverride⟩
  obtain ⟨mark', entries, rfl⟩ := Value.isMap_iff.mp hmap
  rw [merge, mergeEntries]

/-- Records of distinct names have no key twice. -/
theorem Value.Proper.record {fields : List (String × Value Unit)} (h : (fields.map Prod.fst).Nodup)
    (values : ∀ f ∈ fields, f.2.Proper) : (Value.record fields).Proper := by
  refine .map (List.pairwise_map.mpr ((List.pairwise_map.mp h).imp fun hne => ?_)) ?_
  · simpa using hne
  · rintro e he
    obtain ⟨f, hf, rfl⟩ := List.mem_map.mp he
    exact values f hf

/-- Merged at one depth and replaced at another, with the number that is missing among the keys of both. -/
theorem merge_pathwise_settings : ∃ base override : Value Unit,
    base = .map () [(.text "test_files", .record [("location", .text "parallel"), ("exempt", .texts [])]),
      (.text "limit", .int 3), (.float .nan, .int 1)] ∧
    override = .map () [(.text "limit", .record [("high", .int 4)]), (.float .nan, .int 2),
      (.text "test_files", .record [("location", .text "colocated")])] ∧
    merge base override = .map ()
      [(.text "test_files", .record [("location", .text "colocated"), ("exempt", .texts [])]),
        (.text "limit", .record [("high", .int 4)]), (.float .nan, .int 2)] ∧
    base.IsMap ∧ base.Proper ∧ override.Proper ∧
    MergedPathwise base override (merge base override) ∧
    (∀ mark, merge base (.map mark []) = base) ∧
    merge base base = base ∧
    merge (merge base override) override = merge base override := by
  have hkeys : ∀ {a b c : Scalar × Value Unit}, a.1.sameKey b.1 = false → a.1.sameKey c.1 = false →
      b.1.sameKey c.1 = false → DistinctKeys [a, b, c] := fun hab hac hbc =>
    .cons (List.forall_mem_cons.mpr ⟨hab, List.forall_mem_singleton.mpr hac⟩)
      (.cons (List.forall_mem_singleton.mpr hbc) (List.pairwise_singleton _ _))
  have hbase : (Value.map () [(.text "test_files", .record [("location", .text "parallel"), ("exempt", .texts [])]),
      (.text "limit", .int 3), (.float .nan, .int 1)]).Proper := by
    refine .map (hkeys (by rfl) (by rfl) (by rfl)) (List.forall_mem_cons.mpr ⟨?_, List.forall_mem_cons.mpr
      ⟨.other id, List.forall_mem_singleton.mpr (.other id)⟩⟩)
    exact .record (by decide) (List.forall_mem_cons.mpr ⟨.other id, List.forall_mem_singleton.mpr (.other id)⟩)
  have hoverride : (Value.map () [(.text "limit", .record [("high", .int 4)]), (.float .nan, .int 2),
      (.text "test_files", .record [("location", .text "colocated")])]).Proper := by
    refine .map (hkeys (by rfl) (by rfl) (by rfl)) (List.forall_mem_cons.mpr ⟨?_, List.forall_mem_cons.mpr
      ⟨.other id, List.forall_mem_singleton.mpr ?_⟩⟩)
    · exact .record (by decide) (List.forall_mem_singleton.mpr (.other id))
    · exact .record (by decide) (List.forall_mem_singleton.mpr (.other id))
  exact ⟨_, _, rfl, rfl, by rfl, trivial, hbase, hoverride, merge_pathwise trivial hbase hoverride⟩

end LayerLint.Yaml
