import LayerLint.Coverage.Summary
import LayerLint.Preset.BuiltIn
import LayerLint.Report.Table

/-!
# The tables of the command line

The coverage below each scanned directory, and the built-in presets.
-/

namespace LayerLint.Report

/-- The table of coverage. -/
def coverageTable (summaries : List Coverage.DirectorySummary) (total : Binary64) : Table :=
  { title := "Test Coverage"
    columns := [⟨"directory", false⟩, ⟨"packages", true⟩, ⟨"with tests", true⟩, ⟨"coverage", true⟩]
    rows := summaries.map Coverage.summaryRow ++ [Coverage.totalRow total] }

/-- The table of presets. -/
def presetTable (presets : List Preset) : Table :=
  { title := "Presets"
    columns := [⟨"name", false⟩, ⟨"description", false⟩, ⟨"layers", false⟩]
    rows := presets.map fun preset =>
      [preset.name, preset.description, Text.join ", " (preset.directoriesImport.map (·.1))] }

end LayerLint.Report
