import LayerLint.Yaml.Cycle

/-!
# The sections of a configuration

A collection of a configuration may stand inside of itself. So its sections are opened as far as settings are read off
them (`openDocument`).
-/

namespace LayerLint.Settings

open Yaml

/-- The sections that a preset fixes, opened with the sections in them. -/
def openSections : List (String × (Value Nat → Value Nat)) :=
  [("structure", Value.openedWith [("required_directories", Value.openedWith [])]),
    ("rules", Value.openedWith
      [("directories_import", Value.openedWith []), ("shared_external_imports", Value.openedWith []),
        ("test_files", Value.openedWith []),
        ("test_coverage", Value.openedWith [("package_thresholds", Value.openedWith [])])]),
    ("error_prompt", Value.openedWith [])]

/-- The document of a configuration with its sections opened. -/
def openDocument : Value Nat → Value Nat :=
  Value.openedWith <|
    openSections ++ [("preset", Value.openedWith openSections), ("overrides", Value.openedWith openSections)]

end LayerLint.Settings
