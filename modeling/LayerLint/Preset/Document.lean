import LayerLint.Preset.Basic
import LayerLint.Yaml.Naming
import LayerLint.Yaml.Printer.Document

/-!
# The configuration of a preset

A configuration that is made from a preset holds the path of the module, the section of the preset, and the
overrides of the user where there are any. Without overrides an example of them follows as a comment.
-/

namespace LayerLint.Preset

open Yaml

/-- A comment that shows how overrides look. -/
def exampleOverrides : String := paragraph
  ["# Example overrides:",
    "#overrides:",
    "#  structure:",
    "#    required_directories:",
    "#      scripts: \"Build and deployment scripts\"",
    "#  rules:",
    "#    directories_import:",
    "#      scripts: [\"pkg\"]",
    "#  error_prompt:",
    "#    architectural_goals: |",
    "#      Custom goals for your project..."]

/-- The document of a preset for a module. The overrides keep their marks. -/
def document (preset : Preset) (modulePath : String) (overrides : Option (Value (Option Nat))) :
    Value (Option Nat) :=
  let unmarked := fun (v : Value Unit) => v.remark fun _ => none
  .map none <|
    [(.text "module", unmarked (.text modulePath)), (.text "preset", unmarked preset.configuration)] ++
      overrides.toList.map fun v => (.text "overrides", v)

/-- The text of the document, with the example where there are no overrides. -/
def render (preset : Preset) (modulePath : String) (overrides : Option (Value (Option Nat))) : String :=
  (Node.ofValue (preset.document modulePath overrides)).render ++ (if overrides.isNone then exampleOverrides else "")

end LayerLint.Preset
