import LayerLint.Proofs.Settings.Blank
import LayerLint.Proofs.Yaml.Cycle
import LayerLint.Settings.File

/-!
# The sections of a document

The sections of a document are opened by `openDocument`. What holds of opening a map in which other openings are used
holds of it (`openDocument_induction`): it leaves no key twice in a map (`proper_openDocument`), and its values have no
cycles that lead out of them (`cyclesIn_openDocument`). So no section of a document that is read from a text is a cycle
(`entriesOfText_sections`).
-/

namespace LayerLint.Settings

open Yaml Result

/-- What holds of opening a map, where it holds of the openings at its keys, holds of opening a document. -/
theorem openDocument_induction {Q : (Value Nat → Value Nat) → Prop}
    (hopened : ∀ inside, (∀ field ∈ inside, Q field.2) → Q (Value.openedWith inside)) : Q openDocument := by
  have hleaf : Q (Value.openedWith []) := hopened [] (by simp)
  have hsections : ∀ field ∈ openSections, Q field.2 := by
    simp only [openSections, List.forall_mem_cons]
    refine ⟨hopened _ (by simpa using hleaf), hopened _ ?_, hleaf, by simp⟩
    simp only [List.forall_mem_cons]
    exact ⟨hleaf, hleaf, hleaf, hopened _ (by simpa using hleaf), by simp⟩
  refine hopened _ (List.forall_mem_append.mpr ⟨hsections, ?_⟩)
  simpa using hopened openSections hsections

theorem proper_openDocument {value : Value Nat} (h : value.Proper) : (openDocument value).Proper :=
  openDocument_induction (Q := fun f => ∀ {w : Value Nat}, w.Proper → (f w).Proper)
    (fun _ hinside _ hw => hw.openedWith hinside) h

theorem cyclesIn_openDocument {value : Value Nat} (h : value.CyclesIn []) : (openDocument value).CyclesIn [] :=
  openDocument_induction (Q := fun f => ∀ {w : Value Nat}, w.CyclesIn [] → (f w).CyclesIn [])
    (fun _ hinside _ hw => hw.openedWith hinside) h

/-! ## Sections are no cycles -/

/-- After the opening of a value no cycle stands at a key behind others. -/
def Opens (parents : List String) (key : String) (f : Value Nat → Value Nat) : Prop :=
  ∀ {w : Value Nat}, w.CyclesIn [] → ∀ mark isMap,
    Section.valueAt key parents (Schema.entriesBelow (some (f w).plain)) ≠ some (.cycle mark isMap)

section Opens

variable {inside : List (String × (Value Nat → Value Nat))} {parents : List String} {key : String} {w : Value Nat}
  {v : Value Unit}

/-- What stands at a key of an opened map is seen from it, and opened in its turn where the key has an opening. -/
theorem exists_of_lookup?_opened (hw : w.CyclesIn [])
    (h : lookup? (.text key) (Schema.entriesBelow (some (w.openedWith inside).plain)) = some v) :
    ∃ view : Value Nat, view.CyclesIn [] ∧ v = (Value.openedAt inside (.text key) view).plain := by
  cases w with
  | scalar | list | set | pairs | cycle => cases h
  | map mark entries =>
    change lookup? _ (Value.remarkEntries _ _) = _ at h
    rw [lookup?_plain] at h
    obtain ⟨opened, hlookup, rfl⟩ := Option.map_eq_some_iff.mp h
    obtain ⟨e, hfind, rfl⟩ := Option.map_eq_some_iff.mp hlookup
    have hkey : e.1 = .text key := by simpa using List.find?_some hfind
    obtain ⟨view, hview, heq⟩ := Value.exists_of_mem_openedWith hw rfl (List.mem_of_find?_eq_some hfind)
    exact ⟨view, hview, by rw [heq, hkey]⟩

theorem valueAt_nil (parents : List String) : Section.valueAt key parents [] = none := by
  induction parents with
  | nil => rfl
  | cons parent rest ih => exact ih

/-- Opening leaves no cycle at a key. -/
theorem opens_nil (hinside : ∀ field ∈ inside, ∃ inside', field.2 = Value.openedWith inside') :
    Opens [] key (Value.openedWith inside) := by
  intro w hw mark isMap h
  obtain ⟨view, hview, heq⟩ := exists_of_lookup?_opened hw h
  have hcycle : ∀ {u : Value Nat}, u.plain = .cycle mark isMap → ¬ u.CyclesIn [] := by
    intro u hu
    cases u with
    | cycle => exact List.not_mem_nil
    | scalar | list | map | set | pairs => cases hu
  rw [Value.openedAt] at heq
  split at heq
  · obtain ⟨inside', hopening⟩ := hinside _ (List.mem_of_find?_eq_some ‹_›)
    rw [hopening] at heq
    cases view with
    | map => cases heq
    | scalar | list | set | pairs | cycle => exact hcycle heq.symm hview
  · exact hcycle heq.symm hview

/-- Behind a key it leaves none where the opening at the key leaves none. -/
theorem opens_cons {parent : String} {field : String × (Value Nat → Value Nat)}
    (hfield : inside.find? (fun field => Scalar.text parent == Scalar.text field.1) = some field)
    (h : Opens parents key field.2) : Opens (parent :: parents) key (Value.openedWith inside) := by
  intro w hw mark isMap hat
  rw [Section.valueAt] at hat
  cases hfound : lookup? (.text parent) (Schema.entriesBelow (some (w.openedWith inside).plain)) with
  | none =>
    rw [hfound] at hat
    cases (valueAt_nil parents).symm.trans hat
  | some v =>
    obtain ⟨view, hview, rfl⟩ := exists_of_lookup?_opened hw hfound
    rw [hfound, Value.openedAt, hfield] at hat
    exact h hview mark isMap hat

theorem opens_sections {more : List (String × (Value Nat → Value Nat))}
    (hmore : ∀ field ∈ more, ∃ inside', field.2 = Value.openedWith inside') :
    ∀ place ∈ sectionPlaces, Opens place.1 place.2 (Value.openedWith (openSections ++ more)) := by
  have hall : ∀ field ∈ openSections ++ more, ∃ inside', field.2 = Value.openedWith inside' :=
    List.forall_mem_append.mpr ⟨by simp [openSections], hmore⟩
  simp only [sectionPlaces, List.forall_mem_cons]
  refine ⟨opens_nil hall, opens_nil hall, opens_nil hall, opens_cons rfl (opens_nil ?_),
    opens_cons rfl (opens_nil ?_), opens_cons rfl (opens_nil ?_), opens_cons rfl (opens_nil ?_),
    opens_cons rfl (opens_nil ?_), opens_cons rfl (opens_cons rfl (opens_nil ?_)), by simp⟩ <;> simp

end Opens

/-- **No section of a document that is read from a text is a cycle**, in either layout. -/
theorem entriesOfText_sections {name text : String} {data : Section} (h : entriesOfText name text = .ok data) :
    ∀ mark isMap, (∀ key ∈ ["preset", "overrides"], lookup? (.text key) data ≠ some (.cycle mark isMap)) ∧
      ∀ place ∈ sectionPlaces, ∀ before ∈ [[], ["preset"], ["overrides"]],
        Section.valueAt place.2 (before ++ place.1) data ≠ some (.cycle mark isMap) := by
  intro mark isMap
  have hnil : ∀ parents key, Section.valueAt key parents [] ≠ some (.cycle mark isMap) := by simp [valueAt_nil]
  have hopened : ∀ inside ∈ [("preset", Value.openedWith openSections), ("overrides", Value.openedWith openSections)],
      ∃ inside', inside.2 = Value.openedWith inside' := by simp
  rw [entriesOfText] at h
  split at h
  · cases h
  · obtain rfl := Except.ok.inj h
    exact ⟨fun key _ => hnil [] key, fun place _ before _ => hnil _ place.2⟩
  · rename_i value htext
    have hcycles := Value.ofText?_cyclesIn htext
    split at h
    · obtain rfl := Except.ok.inj h
      exact ⟨fun key _ => hnil [] key, fun place _ before _ => hnil _ place.2⟩
    · rename_i entries hplain
      obtain rfl := Except.ok.inj h
      have hbelow : ∀ {parents key}, Opens parents key openDocument →
          Section.valueAt key parents entries ≠ some (.cycle mark isMap) := by
        intro parents key hopens
        have hat := hopens hcycles mark isMap
        rwa [hplain] at hat
      have hsections : ∀ place ∈ sectionPlaces, Opens place.1 place.2 (Value.openedWith (openSections ++ [])) :=
        opens_sections (by simp)
      rw [List.append_nil] at hsections
      refine ⟨fun key _ => ?_, fun place hplace before hbefore => hbelow ?_⟩
      · have htop : Opens [] key openDocument :=
          opens_nil (List.forall_mem_append.mpr ⟨by simp [openSections], hopened⟩)
        exact hbelow htop
      · simp only [List.mem_cons, List.not_mem_nil, or_false] at hbefore
        rcases hbefore with rfl | rfl | rfl
        · exact opens_sections hopened place hplace
        · exact opens_cons rfl (hsections place hplace)
        · exact opens_cons rfl (hsections place hplace)
    · cases h

end LayerLint.Settings
