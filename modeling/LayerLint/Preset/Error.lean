import LayerLint.Disk.Access
import LayerLint.ModulePath
import LayerLint.Preset.BuiltIn
import LayerLint.Yaml.Error

/-!
# Why a configuration cannot be written

The causes for which making a configuration or bringing it up to date fails.
-/

namespace LayerLint

/-- Why a configuration cannot be written. -/
inductive PresetError where
  | unknownPreset (name : String)
  | alreadyExists (fileName : String)
  | missingFile (fileName : String)
  | document (fileName : String) (cause : Yaml.ReadError)
  /-- The document is no map. -/
  | notMapping (fileName : String)
  /-- No preset is asked for, and the configuration names none. -/
  | withoutPreset
  /-- The overrides are no map. -/
  | wrongOverrides (fileName : String)
  /-- The name of the preset has a whole number with too many digits. -/
  | unwritableName
  | modulePath (cause : ModulePath.Error)
  /-- What is to be written has a whole number with too many digits. -/
  | unwritable
  | encoding (cause : Text.DecodeError)
  | file (cause : Disk.LocatedError)
deriving DecidableEq, Repr

namespace PresetError

/-- The wording of the error. -/
def message : PresetError → String
  | .unknownPreset name => Preset.unknownMessage name
  | .alreadyExists fileName => s!"{fileName} already exists, refusing to overwrite"
  | .missingFile fileName => s!"{fileName} not found, run 'archlint init' first"
  | .document fileName .malformed => s!"{fileName}: " ++ Yaml.ReadError.malformed.message
  | .document _ cause => cause.message
  | .notMapping fileName => s!"{fileName} must be a YAML mapping"
  | .withoutPreset => "Config was not created from a preset, cannot refresh. Use --preset to choose one"
  | .wrongOverrides fileName => s!"{fileName}: 'overrides' must be a mapping"
  | .modulePath cause => cause.message
  | .unwritableName | .unwritable => Text.digitsMessage ""
  | .encoding cause => cause.message
  | .file cause => cause.message

/-- The error is reported to the user and does not stop the program. -/
def isReported : PresetError → Bool
  | .document _ cause => cause.isValueError
  | _ => true

end PresetError

end LayerLint
