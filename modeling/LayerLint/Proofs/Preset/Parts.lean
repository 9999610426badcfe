import LayerLint.Preset.BuiltIn
import LayerLint.Preset.File
import LayerLint.Proofs.Text.Lines
import LayerLint.Proofs.Yaml.ReadBack.Legible

/-!
# The parts of configurations

What a configuration is made of reads back: the sections of the built-in presets (`isClear_configuration`) and the path
of a module that a project declares (`keepsBreaks_of_detect`). The headers and the example of overrides are remarks.
-/

namespace LayerLint.Preset

open Yaml

/-! ## The texts of the presets -/

/-- The texts of a preset keep their ends of lines, its paths are distinct short keys, and its thresholds are
percentages. -/
structure IsTidy (preset : Preset) : Prop where
  name : KeepsBreaks preset.name
  directories : AreShortKeys (preset.requiredDirectories.map (·.1)) ∧ ∀ e ∈ preset.requiredDirectories, KeepsBreaks e.2
  imports : AreShortKeys (preset.directoriesImport.map (·.1)) ∧
    ∀ e ∈ preset.directoriesImport, ∀ path ∈ e.2, KeepsBreaks path
  thresholds : AreShortKeys (preset.packageThresholds.map (·.1))
  percents : preset.coverageThreshold ≤ 100 ∧ ∀ e ∈ preset.packageThresholds, e.2 ≤ 100
  principles : ∀ t ∈ preset.principles, KeepsBreaks t
  goals : KeepsBreaks preset.architecturalGoals
  refactoring : KeepsBreaks preset.refactoringGuidance
  coverage : KeepsBreaks preset.coverageGuidance

theorem keepsBreaks_paragraph {lines : List String} (h : ∀ line ∈ lines, KeepsBreaks line) :
    KeepsBreaks (paragraph lines) := by
  refine keepsBreaks_append (by decide) (keepsBreaks_join fun text htext => ?_)
  obtain ⟨line, hline, rfl⟩ := List.mem_map.mp htext
  exact keepsBreaks_append (h line hline) (by decide)

theorem keepsBreaks_blackboxGuidance : KeepsBreaks blackboxGuidance := by
  refine keepsBreaks_paragraph ?_
  simp only [List.forall_mem_cons]
  refine ⟨?_, ?_, ?_, ?_, ?_, ?_, ?_, ?_, ?_, ?_, ?_, ?_, ?_, List.forall_mem_nil _⟩ <;>
    exact keepsBreaks_ofList (by decide)

theorem isTidy_domainDriven : IsTidy domainDriven where
  name := by decide
  directories := by decide
  imports := by decide
  thresholds := by decide
  percents := by decide
  principles := by
    simp only [domainDriven, List.forall_mem_cons]
    refine ⟨?_, ?_, ?_, ?_, ?_, List.forall_mem_nil _⟩ <;> exact keepsBreaks_ofList (by decide)
  goals := by
    refine keepsBreaks_paragraph ?_
    simp only [List.forall_mem_cons]
    refine ⟨?_, ?_, ?_, ?_, ?_, List.forall_mem_nil _⟩ <;> exact keepsBreaks_ofList (by decide)
  refactoring := by
    refine keepsBreaks_paragraph ?_
    simp only [List.forall_mem_cons]
    refine ⟨?_, ?_, ?_, keepsBreaks_append ?_ ?_, keepsBreaks_append ?_ ?_, ?_, ?_, ?_, ?_, ?_, ?_,
      List.forall_mem_nil _⟩ <;>
      exact keepsBreaks_ofList (by decide)
  coverage := by
    refine keepsBreaks_paragraph ?_
    simp only [List.forall_mem_cons]
    refine ⟨?_, ?_, ?_, ?_, ?_, ?_, List.forall_mem_nil _⟩ <;> exact keepsBreaks_ofList (by decide)

theorem isTidy_simple : IsTidy simple where
  name := by decide
  directories := by decide
  imports := by decide
  thresholds := by decide
  percents := by decide
  principles := by
    simp only [simple, List.forall_mem_cons]
    refine ⟨?_, ?_, ?_, ?_, ?_, List.forall_mem_nil _⟩ <;> exact keepsBreaks_ofList (by decide)
  goals := by
    refine keepsBreaks_paragraph ?_
    simp only [List.forall_mem_cons]
    refine ⟨?_, ?_, ?_, ?_, ?_, List.forall_mem_nil _⟩ <;> exact keepsBreaks_ofList (by decide)
  refactoring := by
    refine keepsBreaks_paragraph ?_
    simp only [List.forall_mem_cons]
    refine ⟨?_, ?_, ?_, ?_, ?_, ?_, ?_, ?_, ?_, ?_, ?_, List.forall_mem_nil _⟩ <;> exact keepsBreaks_ofList (by decide)
  coverage := by
    refine keepsBreaks_paragraph ?_
    simp only [List.forall_mem_cons]
    refine ⟨?_, ?_, ?_, ?_, ?_, List.forall_mem_nil _⟩ <;> exact keepsBreaks_ofList (by decide)

theorem isTidy_hexagonal : IsTidy hexagonal where
  name := by decide
  directories := by decide
  imports := by decide
  thresholds := by decide
  percents := by decide
  principles := by
    simp only [hexagonal, List.forall_mem_cons]
    refine ⟨?_, ?_, ?_, ?_, ?_, List.forall_mem_nil _⟩ <;> exact keepsBreaks_ofList (by decide)
  goals := by
    refine keepsBreaks_paragraph ?_
    simp only [List.forall_mem_cons]
    refine ⟨?_, ?_, ?_, ?_, ?_, List.forall_mem_nil _⟩ <;> exact keepsBreaks_ofList (by decide)
  refactoring := by
    refine keepsBreaks_paragraph ?_
    simp only [List.forall_mem_cons]
    refine ⟨?_, ?_, ?_, ?_, ?_, ?_, ?_, ?_, ?_, ?_, ?_, List.forall_mem_nil _⟩ <;> exact keepsBreaks_ofList (by decide)
  coverage := by
    refine keepsBreaks_paragraph ?_
    simp only [List.forall_mem_cons]
    refine ⟨?_, ?_, ?_, ?_, ?_, ?_, List.forall_mem_nil _⟩ <;> exact keepsBreaks_ofList (by decide)

/-- The texts of the built-in presets are tidy. -/
theorem isTidy_of_mem {preset : Preset} (h : preset ∈ all) : IsTidy preset := by
  simp only [all, List.mem_cons, List.not_mem_nil, or_false] at h
  rcases h with rfl | rfl | rfl
  · exact isTidy_domainDriven
  · exact isTidy_simple
  · exact isTidy_hexagonal

/-- A table of a preset, with a value for each of its items. -/
theorem isClear_table {α : Type} {items : List α} {key : α → String} {value : α → Value Unit} {indent : Nat}
    (hkeys : AreShortKeys (items.map key)) (hindent : indent + 4 < lineWidth)
    (h : ∀ e ∈ items, (value e).IsClear (indent + 2)) :
    (Value.record (items.map fun e => (key e, value e))).IsClear indent := by
  refine isClear_record (by rwa [List.map_map]) hindent fun field hfield => ?_
  obtain ⟨e, he, rfl⟩ := List.mem_map.mp hfield
  exact h e he

/-- **The sections of the built-in presets read back.** -/
theorem isClear_configuration {preset : Preset} (h : preset ∈ all) : preset.configuration.IsClear 0 := by
  have htidy := isTidy_of_mem h
  have hstructure : (Value.record
      [("required_directories", .record (preset.requiredDirectories.map fun e => (e.1, .text e.2))),
        ("allow_other_directories", .bool true)]).IsClear 2 := by
    refine isClear_record (show AreShortKeys ["required_directories", "allow_other_directories"] by decide)
      (by decide) ?_
    refine List.forall_mem_cons.mpr ⟨?_, List.forall_mem_singleton.mpr (isClear_bool true)⟩
    exact isClear_table htidy.directories.1 (by decide) fun e he => isClear_text (htidy.directories.2 e he) (by decide)
  have hshared : (Value.record
      [("detect", .bool true), ("mode", .text "warn"), ("exclusions", .texts sharedExclusions),
        ("exclusion_patterns", .texts sharedExclusionPatterns)]).IsClear 4 := by
    refine isClear_record (show AreShortKeys ["detect", "mode", "exclusions", "exclusion_patterns"] by decide)
      (by decide) ?_
    simp only [List.forall_mem_cons]
    exact ⟨isClear_bool true, isClear_text (by decide) (by decide), isClear_texts (by decide) (by decide),
      isClear_texts (by decide) (by decide), List.forall_mem_nil _⟩
  have htests : (Value.record
      [("lint", .bool true), ("location", .text "colocated"), ("require_blackbox", .bool true)]).IsClear 4 := by
    refine isClear_record (show AreShortKeys ["lint", "location", "require_blackbox"] by decide) (by decide) ?_
    simp only [List.forall_mem_cons]
    exact ⟨isClear_bool true, isClear_text (by decide) (by decide), isClear_bool true, List.forall_mem_nil _⟩
  have hcoverage : (Value.record
      [("enabled", .bool true), ("threshold", .int preset.coverageThreshold),
        ("package_thresholds", .record (preset.packageThresholds.map fun e => (e.1, .int e.2)))]).IsClear 4 := by
    refine isClear_record (show AreShortKeys ["enabled", "threshold", "package_thresholds"] by decide) (by decide) ?_
    simp only [List.forall_mem_cons]
    have hpercent : ∀ {n : Nat}, n ≤ 100 → Text.isWritable n = true := fun {n} hn =>
      Text.isWritable_of_lt (show (n : Int).natAbs < 10 ^ 3 by omega) (by decide)
    exact ⟨isClear_bool true, isClear_int (hpercent htidy.percents.1),
      isClear_table htidy.thresholds (by decide) fun e he => isClear_int (hpercent (htidy.percents.2 e he)),
      List.forall_mem_nil _⟩
  have himports : (Value.record (preset.directoriesImport.map fun e => (e.1, .texts e.2))).IsClear 4 :=
    isClear_table htidy.imports.1 (by decide) fun e he => isClear_texts (htidy.imports.2 e he) (by decide)
  rw [configuration]
  refine isClear_record (show AreShortKeys ["name", "structure", "rules", "error_prompt"] by decide) (by decide) ?_
  simp only [List.forall_mem_cons]
  refine ⟨isClear_text htidy.name (by decide), hstructure, ?_, ?_, List.forall_mem_nil _⟩
  · refine isClear_record (show AreShortKeys ["directories_import", "detect_unused", "shared_external_imports",
      "test_files", "test_coverage"] by decide) (by decide) ?_
    simp only [List.forall_mem_cons]
    exact ⟨himports, isClear_bool true, hshared, htests, hcoverage, List.forall_mem_nil _⟩
  · refine isClear_record (show AreShortKeys ["enabled", "architectural_goals", "principles", "refactoring_guidance",
      "coverage_guidance", "blackbox_testing_guidance"] by decide) (by decide) ?_
    simp only [List.forall_mem_cons]
    exact ⟨isClear_bool true, isClear_text htidy.goals (by decide), isClear_texts htidy.principles (by decide),
      isClear_text htidy.refactoring (by decide), isClear_text htidy.coverage (by decide),
      isClear_text keepsBreaks_blackboxGuidance (by decide), List.forall_mem_nil _⟩

/-! ## Paths of modules -/

/-- The path of a module is a part of the line that declares it. -/
theorem mem_of_ofLine? {line : List Char} {path : String} (h : ModulePath.ofLine? line = some path) {c : Char}
    (hc : c ∈ path.toList) : c ∈ line := by
  simp only [ModulePath.ofLine?] at h
  split at h
  · split at h
    · cases h
    · obtain rfl := Option.some.inj h
      rw [String.toList_ofList] at hc
      have := Text.mem_of_mem_trimChars (Text.mem_of_mem_trimChars hc)
      rw [Text.drop, String.toList_ofList, String.toList_ofList] at this
      exact Text.mem_of_mem_trimChars (List.mem_of_mem_drop this)
  · cases h

/-- The path of a module that a project declares stands on one line. -/
theorem keepsBreaks_of_detect {disk : Disk} {root : Location} {path : String}
    (h : ModulePath.detect disk root = .ok path) :
    KeepsBreaks path := by
  rw [ModulePath.detect] at h
  split at h
  · cases h
  · cases h
  · split at h
    · rename_i found hfound
      obtain rfl : found = path := by simpa using h
      obtain ⟨line, hline, hpath⟩ := List.exists_of_findSome?_eq_some hfound
      intro hc
      exact absurd (Text.isLineBreak_of_mem_lines hline (mem_of_ofLine? hpath hc)) (by decide)
    · cases h

/-! ## Headers -/

theorem isRemarks_paragraph {lines : List String} (h : ∀ line ∈ lines, isRemark line) :
    IsRemarks (paragraph lines) := by
  refine ⟨"" :: lines, ?_, List.forall_mem_cons.mpr ⟨rfl, h⟩⟩
  rw [paragraph, String.toList_append, String.toList_join, remarksText, List.flatMap_cons, List.flatMap_map]
  simp

theorem isRemarks_exampleOverrides : IsRemarks exampleOverrides := isRemarks_paragraph (by decide +kernel)

theorem isRemarks_createdHeader {preset : Preset} (h : preset ∈ all) : IsRemarks (createdHeader preset.name) := by
  refine isRemarks_join ?_
  revert preset
  decide +kernel

theorem isRemarks_refreshedHeader {preset : Preset} (h : preset ∈ all) : IsRemarks (refreshedHeader preset.name) := by
  refine isRemarks_join ?_
  revert preset
  decide +kernel

end LayerLint.Preset
