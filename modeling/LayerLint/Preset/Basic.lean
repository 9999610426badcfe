import LayerLint.Text.Search
import LayerLint.Yaml.Value

/-!
# Presets

A preset bundles a layout of directories, what they may import, the coverage that tests have to reach, and
guidance for reports. `configuration` is the section that a configuration keeps of it.
-/

namespace LayerLint

/-- A predefined layout with its rules and guidance. -/
structure Preset where
  name : String
  description : String
  /-- The directories that have to exist, with their purposes. -/
  requiredDirectories : List (String × String)
  /-- The paths that each layer may import. -/
  directoriesImport : List (String × List String)
  coverageThreshold : Nat
  packageThresholds : List (String × Nat)
  architecturalGoals : String
  principles : List String
  refactoringGuidance : String
  coverageGuidance : String
deriving DecidableEq, Repr

namespace Preset

open Yaml

/-- The packages that every layer may import without a report. -/
def sharedExclusions : List String := ["fmt", "strings", "errors", "time", "context"]

/-- The patterns of packages that every layer may import without a report. -/
def sharedExclusionPatterns : List String := ["encoding/*"]

/-- Lines of a text, with an empty one before them. -/
def paragraph (lines : List String) : String := "\n" ++ String.join (lines.map (· ++ "\n"))

/-- Why tests belong in a package of their own. -/
def blackboxGuidance : String := paragraph
  ["**Why Blackbox Testing Matters:**",
    "",
    "Blackbox tests (using 'package foo_test' instead of 'package foo') verify behavior",
    "through the public API, making them more resilient to internal refactoring.",
    "",
    "- Tests should verify behavior through the public interface, not internal details",
    "- If you can't test adequately through the public API, the interface may need work",
    "- When internals change, blackbox tests stay valid as long as the public contract holds",
    "",
    "**How to convert to blackbox testing:**",
    "1. Change package declaration from 'package foo' to 'package foo_test' in test files",
    "2. Import your package: import \"your-module/path/to/foo\"",
    "3. Test only through exported (capitalized) functions, types, and methods"]

/-- The preset as a section of a configuration. -/
def configuration (preset : Preset) : Value Unit :=
  .record
    [("name", .text preset.name),
      ("structure", .record
        [("required_directories",
            .record (preset.requiredDirectories.map fun (path, purpose) => (path, .text purpose))),
          ("allow_other_directories", .bool true)]),
      ("rules", .record
        [("directories_import", .record (preset.directoriesImport.map fun (path, allowed) => (path, .texts allowed))),
          ("detect_unused", .bool true),
          ("shared_external_imports", .record
            [("detect", .bool true), ("mode", .text "warn"), ("exclusions", .texts sharedExclusions),
              ("exclusion_patterns", .texts sharedExclusionPatterns)]),
          ("test_files", .record
            [("lint", .bool true), ("location", .text "colocated"), ("require_blackbox", .bool true)]),
          ("test_coverage", .record
            [("enabled", .bool true), ("threshold", .int preset.coverageThreshold),
              ("package_thresholds",
                .record (preset.packageThresholds.map fun (path, threshold) => (path, .int threshold)))])]),
      ("error_prompt", .record
        [("enabled", .bool true), ("architectural_goals", .text preset.architecturalGoals),
          ("principles", .texts preset.principles), ("refactoring_guidance", .text preset.refactoringGuidance),
          ("coverage_guidance", .text preset.coverageGuidance),
          ("blackbox_testing_guidance", .text blackboxGuidance)])]

end Preset

end LayerLint
