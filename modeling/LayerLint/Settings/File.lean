import LayerLint.Log
import LayerLint.Settings.Document
import LayerLint.Settings.Outline
import LayerLint.Yaml.Value.OfNode

/-!
# The configuration of a project

The settings come from a configuration file: the one that is asked for, or the one at the root of the project.
Where there is none at the root the standard settings hold.
-/

namespace LayerLint.Settings

open Yaml

/-- The name of the configuration file at the root of a project. -/
def fileName : String := ".archlint.yml"

/-- The entries of the document of a configuration; a text without document has none. -/
def entriesOfText (name text : String) : Except SettingsError Section :=
  match Value.ofText? text with
  | .error cause => .error (.document name cause)
  | .ok none => .ok []
  | .ok (some value) =>
    match (openDocument value).plain with
    | .scalar _ .null => .ok []
    | .map _ entries => .ok entries
    | _ => .error (.notMapping name)

/-- The settings in a configuration file. -/
def ofFile (disk : Disk) (root location : Location) : Except SettingsError Settings :=
  match disk.readText location with
  | .error (.file cause) => .error (.unreadable location cause)
  | .error (.encoding cause) => .error (.encoding cause)
  | .ok text => do
    let entries ← entriesOfText location.name text
    ofEntries entries (ModulePath.detect disk root) location.name

/-- The settings of a project. -/
def load (disk : Disk) (root : Location) (given : Option Location) : Logged SettingsError Settings := do
  let location := given.getD (root.join fileName)
  match disk.isFile location with
  | .error cause => .ofExcept (.error (.inaccessible location cause))
  | .ok true =>
    let settings ← .ofExcept (ofFile disk root location)
    let preset := settings.preset.getD "None"
    .note .debug .settings s!"Loaded {location} (module={settings.modulePath}, preset={preset})"
    return settings
  | .ok false =>
    if given.isSome then .ofExcept (.error (.missingFile location))
    else
      .note .debug .settings s!"No {fileName} in {root}, using defaults"
      .ofExcept (((ModulePath.detect disk root).mapError .modulePath).map standard)

end LayerLint.Settings
