import LayerLint.Rule.TestNaming
import Mathlib.Data.List.Perm.Basic
import Mathlib.Data.List.Induction
import Mathlib.Data.List.Nodup

/-!
# Groups of files with one base name

Files belong together by directory and base name (`groupKey`). To add a file to the groups of some files is to make the
groups of these files and that one (`addToGroup_of_mem`, `addToGroup_of_not_mem`), so there is one group for each key,
and it holds all files of its key (`exists_foldl_addToGroup_eq`, `exists_checkTestNaming_eq`). Key by key the files are
all files again, in another order (`flatMap_filter_perm`).
-/

namespace LayerLint.Rule

/-! ## One group for each key -/

/-- What the files of a group have in common: directory and base name. -/
def groupKey (node : FileNode) : String × String := (node.directory, node.baseName)

/-- The tests among the files of a key, or the files that are no tests. -/
def filesAt (nodes : List FileNode) (key : String × String) (isTest : Bool) : List String :=
  (nodes.filter fun node => groupKey node = key ∧ node.isTest = isTest).map (·.relPath)

/-- The group of a key. -/
def groupAt (nodes : List FileNode) (key : String × String) : FileGroup :=
  { directory := key.1, baseName := key.2, implFiles := filesAt nodes key false, testFiles := filesAt nodes key true }

variable {nodes : List FileNode} {node : FileNode} {key : String × String} {keys : List (String × String)}

theorem filesAt_concat (nodes : List FileNode) (node : FileNode) (key : String × String) (isTest : Bool) :
    filesAt (nodes ++ [node]) key isTest =
      filesAt nodes key isTest ++ if groupKey node = key ∧ node.isTest = isTest then [node.relPath] else [] := by
  unfold filesAt
  rw [List.filter_append, List.map_append, List.filter_singleton]
  by_cases h : groupKey node = key ∧ node.isTest = isTest
  · simp only [h, and_self, decide_true, cond_true, if_true, List.map_cons, List.map_nil]
  · simp only [h, decide_false, cond_false, if_false, List.map_nil]

/-- A file does not count for other keys. -/
theorem groupAt_concat_of_ne (h : groupKey node ≠ key) : groupAt (nodes ++ [node]) key = groupAt nodes key := by
  unfold groupAt
  simp only [filesAt_concat, h, false_and, if_false, List.append_nil]

/-- A file of a new key has no company. -/
theorem filesAt_eq_nil (h : ∀ other ∈ nodes, groupKey other ≠ key) (isTest : Bool) : filesAt nodes key isTest = [] := by
  unfold filesAt
  rw [List.map_eq_nil_iff, List.filter_eq_nil_iff]
  intro other hother
  simp [h other hother]

/-- The test whether a group takes a file is a comparison of keys. -/
theorem takes_iff : ((groupAt nodes key).directory == node.directory && (groupAt nodes key).baseName == node.baseName) =
    true ↔ groupKey node = key := by
  rw [Bool.and_eq_true, beq_iff_eq, beq_iff_eq, groupKey, Prod.ext_iff, groupAt, eq_comm (a := key.1),
    eq_comm (a := key.2)]

theorem addToGroup_cons (node : FileNode) (group : FileGroup) (rest : List FileGroup) :
    addToGroup node (group :: rest) =
      if group.directory == node.directory && group.baseName == node.baseName then
        (if node.isTest then { group with testFiles := group.testFiles ++ [node.relPath] }
         else { group with implFiles := group.implFiles ++ [node.relPath] }) :: rest
      else group :: addToGroup node rest := rfl

/-- **A file whose key has a group** is added to this group. -/
theorem addToGroup_of_mem (hnodup : keys.Nodup) (h : groupKey node ∈ keys) :
    addToGroup node (keys.map (groupAt nodes)) = keys.map (groupAt (nodes ++ [node])) := by
  induction keys with
  | nil => cases h
  | cons key rest ih =>
    obtain ⟨hkey, hrest⟩ := List.nodup_cons.mp hnodup
    rw [List.map_cons, List.map_cons, addToGroup_cons]
    by_cases hnode : groupKey node = key
    · -- the groups behind it are those of other keys
      have hothers : rest.map (groupAt (nodes ++ [node])) = rest.map (groupAt nodes) := by
        apply List.map_congr_left
        intro other hother
        apply groupAt_concat_of_ne
        rintro rfl
        exact hkey (hnode ▸ hother)
      rw [if_pos (takes_iff.mpr hnode), hothers]
      congr 1
      cases htest : node.isTest <;> simp [groupAt, filesAt_concat, hnode, htest]
    · rw [if_neg (mt takes_iff.mp hnode), groupAt_concat_of_ne hnode]
      rcases List.mem_cons.mp h with hhead | htail
      · exact absurd hhead hnode
      · rw [ih hrest htail]

/-- The group that a file begins is that of its key, if no earlier file has this key. -/
theorem addToGroup_nil (hnew : ∀ other ∈ nodes, groupKey other ≠ groupKey node) :
    addToGroup node [] = [groupAt (nodes ++ [node]) (groupKey node)] := by
  rw [addToGroup, groupAt, filesAt_concat, filesAt_concat, filesAt_eq_nil hnew, filesAt_eq_nil hnew]
  cases node.isTest <;> simp [groupKey]

/-- **A file whose key has no group** begins one. -/
theorem addToGroup_of_not_mem (h : groupKey node ∉ keys) :
    addToGroup node (keys.map (groupAt nodes)) = keys.map (groupAt (nodes ++ [node])) ++ addToGroup node [] := by
  induction keys with
  | nil => rfl
  | cons key rest ih =>
    obtain ⟨hkey, hrest⟩ := not_or.mp (mt List.mem_cons.mpr h)
    rw [List.map_cons, List.map_cons, addToGroup_cons, if_neg (mt takes_iff.mp hkey), groupAt_concat_of_ne hkey,
      ih hrest, List.cons_append]

/-- **One group for each key**: the files that are not exempt are grouped by their keys, and a group holds all files of
its key. -/
theorem exists_foldl_addToGroup_eq (nodes : List FileNode) : ∃ keys : List (String × String),
    keys.Nodup ∧ (∀ key, key ∈ keys ↔ ∃ node ∈ nodes, groupKey node = key) ∧
      nodes.foldl (fun groups node => addToGroup node groups) [] = keys.map (groupAt nodes) := by
  induction nodes using List.reverseRecOn with
  | nil => exact ⟨[], List.nodup_nil, by simp, rfl⟩
  | append_singleton nodes node ih =>
    obtain ⟨keys, hnodup, hkeys, hgroups⟩ := ih
    rw [List.foldl_append, hgroups, List.foldl_cons, List.foldl_nil]
    by_cases h : groupKey node ∈ keys
    · refine ⟨keys, hnodup, fun key => ?_, addToGroup_of_mem hnodup h⟩
      rw [hkeys]
      constructor
      · rintro ⟨other, hother, heq⟩
        exact ⟨other, List.mem_append_left _ hother, heq⟩
      · rintro ⟨other, hother, rfl⟩
        rcases List.mem_append.mp hother with hother | hother
        · exact ⟨other, hother, rfl⟩
        · rw [List.mem_singleton.mp hother]
          exact (hkeys _).mp h
    · have hnew : ∀ other ∈ nodes, groupKey other ≠ groupKey node :=
        fun other hother heq => h ((hkeys _).mpr ⟨other, hother, heq⟩)
      refine ⟨keys ++ [groupKey node], ?_, fun key => ?_, ?_⟩
      · rw [← List.concat_eq_append]
        exact hnodup.concat h
      · rw [List.mem_append, hkeys, List.mem_singleton]
        constructor
        · rintro (⟨other, hother, heq⟩ | rfl)
          · exact ⟨other, List.mem_append_left _ hother, heq⟩
          · exact ⟨node, List.mem_append_right _ (List.mem_singleton.mpr rfl), rfl⟩
        · rintro ⟨other, hother, rfl⟩
          rcases List.mem_append.mp hother with hother | hother
          · exact Or.inl ⟨other, hother, rfl⟩
          · exact Or.inr (by rw [List.mem_singleton.mp hother])
      · rw [addToGroup_of_not_mem h, addToGroup_nil hnew, List.map_append, List.map_singleton]

/-- The files that are not exempt. -/
def pairedFiles (graph : Graph) : List FileNode := graph.nodes.filter fun node => !isNamingExempt node.baseName

/-- **The violations are those of one group for each key.** -/
theorem exists_checkTestNaming_eq (graph : Graph) (policy : Policy) : ∃ keys : List (String × String),
    keys.Nodup ∧ (∀ key, key ∈ keys ↔ ∃ node ∈ pairedFiles graph, groupKey node = key) ∧
      checkTestNaming graph policy =
        keys.flatMap fun key => checkGroup policy.flagMissingTests (groupAt (pairedFiles graph) key) := by
  obtain ⟨keys, hnodup, hkeys, hgroups⟩ := exists_foldl_addToGroup_eq (pairedFiles graph)
  refine ⟨keys, hnodup, hkeys, ?_⟩
  unfold checkTestNaming groupFiles
  rw [← pairedFiles, hgroups, List.flatMap_map]

/-! ## Key by key -/

section

variable {α β : Type} [DecidableEq β] {keyOf : α → β}

/-- The elements of one key are not lost when those of another key are taken out. -/
theorem filter_filter_of_ne {key other : β} (h : other ≠ key) (l : List α) :
    ((l.filter fun x => !decide (keyOf x = key)).filter fun x => decide (keyOf x = other)) =
      l.filter fun x => decide (keyOf x = other) := by
  rw [List.filter_filter]
  apply List.filter_congr
  intro x _
  by_cases hx : keyOf x = other
  · have hne : keyOf x ≠ key := fun heq => h (hx.symm.trans heq)
    rw [decide_eq_true hx, decide_eq_false hne]
    rfl
  · rw [decide_eq_false hx, Bool.false_and]

/-- The elements of each key, key by key, are all elements in another order. -/
theorem flatMap_filter_perm {keys : List β} (hnodup : keys.Nodup) {l : List α} (h : ∀ x ∈ l, keyOf x ∈ keys) :
    (keys.flatMap fun key => l.filter fun x => decide (keyOf x = key)).Perm l := by
  induction keys generalizing l with
  | nil =>
    rw [List.eq_nil_iff_forall_not_mem.mpr fun x hx => List.not_mem_nil (h x hx)]
    exact .nil
  | cons key rest ih =>
    obtain ⟨hkey, hrest⟩ := List.nodup_cons.mp hnodup
    -- the other keys do not see the elements of the first
    have hothers : (rest.flatMap fun other => l.filter fun x => decide (keyOf x = other)) =
        rest.flatMap fun other =>
          (l.filter fun x => !decide (keyOf x = key)).filter fun x => decide (keyOf x = other) := by
      apply List.flatMap_congr
      intro other hother
      exact (filter_filter_of_ne (fun heq : other = key => hkey (heq ▸ hother)) l).symm
    have hleft : ∀ x ∈ l.filter fun x => !decide (keyOf x = key), keyOf x ∈ rest := by
      intro x hx
      obtain ⟨hx, hne⟩ := List.mem_filter.mp hx
      exact (List.mem_cons.mp (h x hx)).resolve_left (by simpa using hne)
    rw [List.flatMap_cons, hothers]
    exact ((ih hrest hleft).append_left _).trans (List.filter_append_perm _ l)

end

end LayerLint.Rule
