import LayerLint.Proofs.Yaml.Keys
import LayerLint.Yaml.Cycle

/-!
# Cycles and the collections that they lead to

- No map has a key twice after maps are opened (`Value.Proper.openedWith`).
- The cycles of a value lead to collections around it: all of those in a document lead to collections of the document
  (`ofText?_cyclesIn`). Seen from a collection its parts have no cycles that lead to it, so opening maps leaves no cycle
  among their values (`Value.CyclesIn.viewOf`, `Value.CyclesIn.openedWith`).
-/

namespace LayerLint.Yaml

open Result

variable {ι : Type}

namespace Value

theorem replaceEntries_eq_map (f : Value ι → Option (Value ι)) (entries : List (Scalar × Value ι)) :
    replaceEntries f entries = entries.map fun e => (e.1, e.2.replaceParts f) := by
  induction entries with
  | nil => rfl
  | cons e rest ih => rw [replaceEntries, ih, List.map_cons]

/-! ## Keys -/

section Keys

theorem Proper.replaceParts {f : Value ι → Option (Value ι)} (hf : ∀ {u w}, f u = some w → w.Proper) {v : Value ι}
    (h : v.Proper) : (v.replaceParts f).Proper := by
  induction h with
  | @map mark entries distinct values ih =>
    rw [Value.replaceParts]
    cases hnew : f (.map mark entries) with
    | some w => exact hf hnew
    | none =>
      rw [Option.getD_none, replaceEntries_eq_map]
      refine .map (List.pairwise_map.mpr distinct) fun e he => ?_
      obtain ⟨o, ho, rfl⟩ := List.mem_map.mp he
      exact ih o ho
  | @other v h =>
    have hnew : ∀ {u w : Value ι}, ¬ w.IsMap → ((f u).getD w).Proper := by
      intro u w hw
      cases hu : f u with
      | some found => exact hf hu
      | none => exact .other hw
    cases v with
    | map => exact absurd trivial h
    | scalar | list | set | pairs | cycle =>
      rw [Value.replaceParts]
      exact hnew id

variable [DecidableEq ι]

theorem Proper.closed {mark : ι} {v : Value ι} (h : v.Proper) : (v.replaceParts (closed? mark)).Proper := by
  refine h.replaceParts fun {u w} hw => .other fun hmap => ?_
  cases u with
  | scalar | cycle => cases hw
  | list | map | set | pairs =>
    rw [closed?] at hw
    split at hw
    · cases hw
      exact hmap
    · cases hw

theorem Proper.viewOf {whole part : Value ι} (hwhole : whole.Proper) (hpart : part.Proper) :
    (whole.viewOf part).Proper := by
  have hopened : (part.replaceParts (opened? whole.mark (whole.replaceParts (closed? part.mark)))).Proper := by
    refine hpart.replaceParts fun {u w} hw => ?_
    cases u with
    | cycle =>
      rw [opened?] at hw
      split at hw
      · exact Option.some.inj hw ▸ hwhole.closed
      · cases hw
    | scalar | list | map | set | pairs => cases hw
  cases part with
  | cycle mark isMap =>
    rw [Value.viewOf]
    split
    · exact hwhole
    · exact .other id
  | scalar | list | map | set | pairs => exact hopened

/-- **No map has a key twice after maps are opened.** -/
theorem Proper.openedWith {inside : List (String × (Value ι → Value ι))}
    (hinside : ∀ field ∈ inside, ∀ {w : Value ι}, w.Proper → (field.2 w).Proper) {v : Value ι} (h : v.Proper) :
    (v.openedWith inside).Proper := by
  cases v with
  | scalar | list | set | pairs | cycle => exact h
  | map mark entries =>
    have hwhole := h
    cases h with
    | other h => exact absurd trivial h
    | map distinct values =>
      refine .map (List.pairwise_map.mpr distinct) fun e he => ?_
      obtain ⟨o, ho, rfl⟩ := List.mem_map.mp he
      have hview := hwhole.viewOf (values o ho)
      dsimp only [openedAt]
      split
      · exact hinside _ (List.mem_of_find?_eq_some ‹_›) hview
      · exact hview

end Keys

/-! ## Where cycles lead -/

mutual

/-- The cycles of a value lead to collections in it or to those with these marks. -/
def CyclesIn : List ι → Value ι → Prop
  | _, .scalar .. | _, .set .. => True
  | scope, .list mark items => CyclesInItems (mark :: scope) items
  | scope, .map mark entries => CyclesInEntries (mark :: scope) entries
  | scope, .pairs mark items => CyclesInPairs (mark :: scope) items
  | scope, .cycle mark _ => mark ∈ scope

/-- The cycles of items do. -/
def CyclesInItems : List ι → List (Value ι) → Prop
  | _, [] => True
  | scope, item :: rest => item.CyclesIn scope ∧ CyclesInItems scope rest

/-- The cycles of entries do. -/
def CyclesInEntries : List ι → List (Scalar × Value ι) → Prop
  | _, [] => True
  | scope, (_, value) :: rest => value.CyclesIn scope ∧ CyclesInEntries scope rest

/-- The cycles of pairs do. -/
def CyclesInPairs : List ι → List (Value ι × Value ι) → Prop
  | _, [] => True
  | scope, (a, b) :: rest => a.CyclesIn scope ∧ b.CyclesIn scope ∧ CyclesInPairs scope rest

end

theorem cyclesInItems_iff {scope : List ι} {items : List (Value ι)} :
    CyclesInItems scope items ↔ ∀ item ∈ items, item.CyclesIn scope := by
  induction items with
  | nil => simp [CyclesInItems]
  | cons item rest ih => simp [CyclesInItems, ih]

theorem cyclesInEntries_iff {scope : List ι} {entries : List (Scalar × Value ι)} :
    CyclesInEntries scope entries ↔ ∀ e ∈ entries, e.2.CyclesIn scope := by
  induction entries with
  | nil => simp [CyclesInEntries]
  | cons e rest ih => simp [CyclesInEntries, ih]

theorem cyclesInPairs_iff {scope : List ι} {items : List (Value ι × Value ι)} :
    CyclesInPairs scope items ↔ ∀ pair ∈ items, pair.1.CyclesIn scope ∧ pair.2.CyclesIn scope := by
  induction items with
  | nil => simp [CyclesInPairs]
  | cons pair rest ih => simp [CyclesInPairs, ih, and_assoc]

mutual

theorem CyclesIn.mono : ∀ {scope scope' : List ι} {v : Value ι}, scope ⊆ scope' → v.CyclesIn scope → v.CyclesIn scope'
  | _, _, .scalar .., _, _ | _, _, .set .., _, _ => trivial
  | _, _, .list .., hsub, h => cyclesInItems_mono (List.cons_subset_cons _ hsub) h
  | _, _, .map .., hsub, h => cyclesInEntries_mono (List.cons_subset_cons _ hsub) h
  | _, _, .pairs .., hsub, h => cyclesInPairs_mono (List.cons_subset_cons _ hsub) h
  | _, _, .cycle .., hsub, h => hsub h

theorem cyclesInItems_mono : ∀ {scope scope' : List ι} {items : List (Value ι)}, scope ⊆ scope' →
    CyclesInItems scope items → CyclesInItems scope' items
  | _, _, [], _, _ => trivial
  | _, _, _ :: _, hsub, h => ⟨h.1.mono hsub, cyclesInItems_mono hsub h.2⟩

theorem cyclesInEntries_mono : ∀ {scope scope' : List ι} {entries : List (Scalar × Value ι)}, scope ⊆ scope' →
    CyclesInEntries scope entries → CyclesInEntries scope' entries
  | _, _, [], _, _ => trivial
  | _, _, _ :: _, hsub, h => ⟨h.1.mono hsub, cyclesInEntries_mono hsub h.2⟩

theorem cyclesInPairs_mono : ∀ {scope scope' : List ι} {items : List (Value ι × Value ι)}, scope ⊆ scope' →
    CyclesInPairs scope items → CyclesInPairs scope' items
  | _, _, [], _, _ => trivial
  | _, _, _ :: _, hsub, h => ⟨h.1.mono hsub, h.2.1.mono hsub, cyclesInPairs_mono hsub h.2.2⟩

end

/-- A replacement leads from one scope to another: what it puts in place of a part lies in the other one, and so do the
cycles that it leaves alone. -/
structure Leads (f : Value ι → Option (Value ι)) (scope scope' : List ι) : Prop where
  replaced : ∀ {u w}, f u = some w → u.CyclesIn scope → w.CyclesIn scope'
  kept : ∀ {mark isMap}, f (.cycle mark isMap) = none → mark ∈ scope → mark ∈ scope'

section Replace

variable {f : Value ι → Option (Value ι)}

mutual

/-- **Cycles after a replacement** lead where it leads, if it leads there inside of all collections. -/
theorem CyclesIn.replaceParts : ∀ {v : Value ι} {scope scope' : List ι},
    (∀ inner, Leads f (inner ++ scope) (inner ++ scope')) → v.CyclesIn scope → (v.replaceParts f).CyclesIn scope'
  | .scalar mark s, _, _, hleads, h => by
    rw [Value.replaceParts]
    cases hnew : f (.scalar mark s) with
    | some w => exact (hleads []).replaced hnew h
    | none => trivial
  | .set mark members, _, _, hleads, h => by
    rw [Value.replaceParts]
    cases hnew : f (.set mark members) with
    | some w => exact (hleads []).replaced hnew h
    | none => trivial
  | .list mark items, _, _, hleads, h => by
    rw [Value.replaceParts]
    cases hnew : f (.list mark items) with
    | some w => exact (hleads []).replaced hnew h
    | none => exact cyclesInItems_replace (fun inner => by simpa using hleads (inner ++ [mark])) h
  | .map mark entries, _, _, hleads, h => by
    rw [Value.replaceParts]
    cases hnew : f (.map mark entries) with
    | some w => exact (hleads []).replaced hnew h
    | none => exact cyclesInEntries_replace (fun inner => by simpa using hleads (inner ++ [mark])) h
  | .pairs mark items, _, _, hleads, h => by
    rw [Value.replaceParts]
    cases hnew : f (.pairs mark items) with
    | some w => exact (hleads []).replaced hnew h
    | none => exact cyclesInPairs_replace (fun inner => by simpa using hleads (inner ++ [mark])) h
  | .cycle mark isMap, _, _, hleads, h => by
    rw [Value.replaceParts]
    cases hnew : f (.cycle mark isMap) with
    | some w => exact (hleads []).replaced hnew h
    | none => exact (hleads []).kept hnew h

theorem cyclesInItems_replace : ∀ {items : List (Value ι)} {scope scope' : List ι},
    (∀ inner, Leads f (inner ++ scope) (inner ++ scope')) → CyclesInItems scope items →
      CyclesInItems scope' (replaceItems f items)
  | [], _, _, _, _ => trivial
  | _ :: _, _, _, hleads, h => ⟨h.1.replaceParts hleads, cyclesInItems_replace hleads h.2⟩

theorem cyclesInEntries_replace : ∀ {entries : List (Scalar × Value ι)} {scope scope' : List ι},
    (∀ inner, Leads f (inner ++ scope) (inner ++ scope')) → CyclesInEntries scope entries →
      CyclesInEntries scope' (replaceEntries f entries)
  | [], _, _, _, _ => trivial
  | _ :: _, _, _, hleads, h => ⟨h.1.replaceParts hleads, cyclesInEntries_replace hleads h.2⟩

theorem cyclesInPairs_replace : ∀ {items : List (Value ι × Value ι)} {scope scope' : List ι},
    (∀ inner, Leads f (inner ++ scope) (inner ++ scope')) → CyclesInPairs scope items →
      CyclesInPairs scope' (replacePairs f items)
  | [], _, _, _, _ => trivial
  | _ :: _, _, _, hleads, h =>
    ⟨h.1.replaceParts hleads, h.2.1.replaceParts hleads, cyclesInPairs_replace hleads h.2.2⟩

end

end Replace

section Views

variable [DecidableEq ι] {scope scope' : List ι} {whole part : Value ι} {mark : ι}

theorem leads_closed? (inner : List ι) : Leads (closed? mark) (inner ++ scope) (inner ++ mark :: scope) where
  replaced {u w} hw _ := by
    have hcycle : ∃ isMap, w = .cycle mark isMap := by
      cases u with
      | scalar | cycle => cases hw
      | list | map | set | pairs =>
        rw [closed?] at hw
        split at hw
        · exact ⟨_, (Option.some.inj hw).symm⟩
        · cases hw
    obtain ⟨isMap, rfl⟩ := hcycle
    exact List.mem_append_right _ List.mem_cons_self
  kept _ h := by
    rcases List.mem_append.mp h with h | h
    · exact List.mem_append_left _ h
    · exact List.mem_append_right _ (List.mem_cons_of_mem _ h)

theorem leads_opened? (hsub : scope ⊆ mark :: scope') (hwhole : whole.CyclesIn scope') (inner : List ι) :
    Leads (opened? mark whole) (inner ++ scope) (inner ++ scope') where
  replaced {u w} hw _ := by
    cases u with
    | cycle =>
      rw [opened?] at hw
      split at hw
      · exact Option.some.inj hw ▸ hwhole.mono (List.subset_append_right _ _)
      · cases hw
    | scalar | list | map | set | pairs => cases hw
  kept {mark' isMap} hnone h := by
    have hne : mark' ≠ mark := by
      rintro rfl
      simp [opened?] at hnone
    rcases List.mem_append.mp h with h | h
    · exact List.mem_append_left _ h
    · exact List.mem_append_right _ ((List.mem_cons.mp (hsub h)).resolve_left hne)

/-- **Seen from a collection, its parts have no cycles that lead to it**: they lead where those of the collection do. -/
theorem CyclesIn.viewOf (hwhole : whole.CyclesIn scope) (hpart : part.CyclesIn (whole.mark :: scope)) :
    (whole.viewOf part).CyclesIn scope := by
  have hclosed : (whole.replaceParts (closed? part.mark)).CyclesIn (part.mark :: scope) :=
    hwhole.replaceParts leads_closed?
  have hleads : ∀ inner, Leads (opened? whole.mark (whole.replaceParts (closed? part.mark)))
      (inner ++ part.mark :: whole.mark :: scope) (inner ++ part.mark :: scope) :=
    leads_opened? (List.Perm.swap _ _ _).subset hclosed
  cases part with
  | cycle mark isMap =>
    rw [Value.viewOf]
    split
    · exact hwhole
    · rename_i hne
      exact (List.mem_cons.mp hpart).resolve_left hne
  | scalar | set => trivial
  | list mark items => exact cyclesInItems_replace hleads hpart
  | map mark entries => exact cyclesInEntries_replace hleads hpart
  | pairs mark items => exact cyclesInPairs_replace hleads hpart

variable {inside : List (String × (Value ι → Value ι))} {entries : List (Scalar × Value ι)}

/-- The values of an opened map: views of those of the map, opened in their turn at some keys. -/
theorem exists_of_mem_openedWith (h : (Value.map mark entries).CyclesIn scope) {mark' : ι}
    {opened : List (Scalar × Value ι)} (hopened : (Value.map mark entries).openedWith inside = .map mark' opened)
    {e : Scalar × Value ι} (he : e ∈ opened) :
    ∃ view : Value ι, view.CyclesIn scope ∧ e.2 = openedAt inside e.1 view := by
  rw [Value.openedWith, Value.map.injEq] at hopened
  obtain ⟨-, rfl⟩ := hopened
  obtain ⟨o, ho, rfl⟩ := List.mem_map.mp he
  exact ⟨_, h.viewOf (cyclesInEntries_iff.mp h o ho), rfl⟩

/-- **The values of an opened map have no cycles that lead to it.** -/
theorem CyclesIn.of_mem_openedWith (h : (Value.map mark entries).CyclesIn scope)
    (hinside : ∀ field ∈ inside, ∀ {w : Value ι}, w.CyclesIn scope → (field.2 w).CyclesIn scope) {mark' : ι}
    {opened : List (Scalar × Value ι)} (hopened : (Value.map mark entries).openedWith inside = .map mark' opened)
    {e : Scalar × Value ι} (he : e ∈ opened) : e.2.CyclesIn scope := by
  obtain ⟨view, hview, heq⟩ := exists_of_mem_openedWith h hopened he
  rw [heq, openedAt]
  split
  · exact hinside _ (List.mem_of_find?_eq_some ‹_›) hview
  · exact hview

theorem CyclesIn.openedWith {v : Value ι} (h : v.CyclesIn scope)
    (hinside : ∀ field ∈ inside, ∀ {w : Value ι}, w.CyclesIn scope → (field.2 w).CyclesIn scope) :
    (v.openedWith inside).CyclesIn scope := by
  cases v with
  | scalar | list | set | pairs | cycle => exact h
  | map mark entries =>
    refine cyclesInEntries_iff.mpr fun e he => ?_
    exact (h.of_mem_openedWith hinside rfl he).mono (List.subset_cons_self ..)

end Views

end Value

/-! ## Documents -/

section Nodes

variable {anchors : Anchors} {fuel level mark : Nat} {opened : List Nat} {node : Node Nat}

theorem valueOf_list {items : List (Value Nat)}
    (h : valueOf anchors (fuel + 1) opened level node = .ok (.list mark items)) :
    ∀ item ∈ items, ∃ level node, valueOf anchors fuel (mark :: opened) level node = .ok item := by
  rw [valueOf] at h
  dsimp only at h
  split at h
  · cases h
  · split at h <;> simp [mapError_eq_ok, map_eq_ok] at h
  · split at h <;> (try split at h) <;> simp [mapError_eq_ok, map_eq_ok] at h
    obtain ⟨hitems, rfl⟩ := h
    intro item hitem
    obtain ⟨node, -, hnode⟩ := List.mem_map.mp (gather_eq_ok hitems hitem)
    exact ⟨_, node, hnode⟩
  · split at h <;> (try split at h) <;> simp [mapError_eq_ok, map_eq_ok] at h

theorem valueOf_pairs {items : List (Value Nat × Value Nat)}
    (h : valueOf anchors (fuel + 1) opened level node = .ok (.pairs mark items)) :
    ∀ pair ∈ items, ∀ v ∈ [pair.1, pair.2], ∃ level node, valueOf anchors fuel (mark :: opened) level node = .ok v := by
  rw [valueOf] at h
  dsimp only at h
  split at h
  · cases h
  · split at h <;> simp [mapError_eq_ok, map_eq_ok] at h
  · split at h <;> (try split at h) <;> simp [mapError_eq_ok, map_eq_ok] at h
    all_goals
      obtain ⟨hitems, rfl⟩ := h
      intro pair hpair
      obtain ⟨node, -, hnode⟩ := List.mem_map.mp (gather_eq_ok hitems hpair)
      split at hnode
      · obtain ⟨hfirst, hsecond⟩ := both_eq_ok hnode
        exact List.forall_mem_cons.mpr ⟨⟨_, _, hfirst⟩, List.forall_mem_singleton.mpr ⟨_, _, hsecond⟩⟩
      · cases hnode
  · split at h <;> (try split at h) <;> simp [mapError_eq_ok, map_eq_ok] at h

theorem valueOf_cycle {isMap : Bool} (h : valueOf anchors (fuel + 1) opened level node = .ok (.cycle mark isMap)) :
    mark ∈ opened := by
  rw [valueOf] at h
  dsimp only at h
  split at h
  · cases h
  · split at h <;> simp [mapError_eq_ok, map_eq_ok] at h
  · split at h <;> (try split at h) <;> simp [mapError_eq_ok, map_eq_ok] at h <;> grind
  · split at h <;> (try split at h) <;> simp [mapError_eq_ok, map_eq_ok] at h <;> grind

end Nodes

/-- **The cycles in the value of a node lead to collections around it.** -/
theorem valueOf_cyclesIn (anchors : Anchors) (fuel : Nat) : ∀ (opened : List Nat) (level : Nat) (node : Node Nat)
    {value : Value Nat}, valueOf anchors fuel opened level node = .ok value → value.CyclesIn opened := by
  induction fuel with
  | zero => simp [valueOf]
  | succ fuel ih =>
    intro opened level node value h
    cases value with
    | scalar | set => trivial
    | list mark items =>
      refine Value.cyclesInItems_iff.mpr fun item hitem => ?_
      obtain ⟨level', node', hvalue⟩ := valueOf_list h item hitem
      exact ih _ level' node' hvalue
    | map mark entries =>
      obtain ⟨settings, rfl, hsettings⟩ := valueOf_map h
      refine Value.cyclesInEntries_iff.mpr fun e he => ?_
      obtain ⟨s, hs, hes⟩ := value_of_mem_entriesOf he
      obtain ⟨level', node', hvalue⟩ := hsettings s hs
      exact hes ▸ ih _ level' node' hvalue
    | pairs mark items =>
      have hpart : ∀ pair ∈ items, ∀ v ∈ [pair.1, pair.2], v.CyclesIn (mark :: opened) := by
        intro pair hpair v hv
        obtain ⟨level', node', hvalue⟩ := valueOf_pairs h pair hpair v hv
        exact ih _ level' node' hvalue
      exact Value.cyclesInPairs_iff.mpr fun pair hpair =>
        ⟨hpart pair hpair _ (by simp), hpart pair hpair _ (by simp)⟩
    | cycle mark isMap => exact valueOf_cycle h

/-- **In the value of a document all cycles lead to collections of the document.** -/
theorem Value.ofText?_cyclesIn {text : String} {value : Value Nat} (h : Value.ofText? text = .ok (some value)) :
    value.CyclesIn [] := by
  rw [Value.ofText?, bind_eq_ok] at h
  obtain ⟨document, -, h⟩ := h
  cases document with
  | none => cases h
  | some node =>
    simp only [bind_eq_ok, pure_eq_ok, Option.some.injEq] at h
    obtain ⟨value', hvalue, rfl⟩ := h
    exact valueOf_cyclesIn _ _ _ _ _ (mapError_eq_ok.mp hvalue)

end LayerLint.Yaml
