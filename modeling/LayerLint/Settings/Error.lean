import LayerLint.ModulePath
import LayerLint.Outcome
import LayerLint.Policy
import LayerLint.Yaml.Error
import LayerLint.Yaml.Value

/-!
# Why a configuration cannot be used

Most causes are reported to the user (`isReported`); a few stop the program instead.
-/

namespace LayerLint

/-- What a setting has to be. -/
inductive SettingKind where
  | mapping
  | strings
  | truth
  | number
  | text
deriving DecidableEq, Repr

/-- The wording of the kind. -/
def SettingKind.phrase : SettingKind → String
  | .mapping => "a mapping"
  | .strings => "a list of strings"
  | .truth => "true or false"
  | .number => "a number"
  | .text => "a string"

/-- Why a configuration cannot be used. The `place` is the file, perhaps with a section in it. -/
inductive SettingsError where
  | wrongKind (place key : String) (expected : SettingKind)
  /-- The entry of a directory is no list of paths. -/
  | notPaths (place directory : String)
  | unknownSections (place : String) (keys : List Yaml.Scalar)
  /-- Unknown sections that have no order in which they could be shown. -/
  | unorderedSections
  | unknownMode (place word : String)
  | unknownLocation (place word : String)
  /-- A whole number beyond all floating-point numbers. -/
  | hugeNumber
  /-- A whole number that is to be shown has too many digits. -/
  | unwritable
  | modulePath (cause : ModulePath.Error)
  | missingFile (location : Location)
  | unreadable (location : Location) (cause : FileError)
  /-- It cannot even be said whether there is a file. -/
  | inaccessible (location : Location) (cause : FileError)
  | encoding (cause : Text.DecodeError)
  | document (name : String) (cause : Yaml.ReadError)
  /-- The document is no map. -/
  | notMapping (name : String)

namespace SettingsError

/-- Texts as a list between brackets. -/
def shownList (items : List String) : String := "[" ++ Text.join ", " items ++ "]"

/-- The wording of the error. -/
def message : SettingsError → String
  | .wrongKind place key expected => s!"{place}: '{key}' must be {expected.phrase}"
  | .notPaths place directory => s!"{place}: directories_import.{directory} must be a list of paths"
  | .unknownSections place keys => s!"{place}: unknown overrides section(s): " ++ shownList (keys.map (·.shown))
  | .unorderedSections => "unknown overrides sections cannot be ordered"
  | .unknownMode place word =>
    s!"{place}: shared_external_imports.mode '{word}' must be one of " ++
      shownList ([SharedImportsMode.error, .warn].map fun mode => Text.quoted mode.name)
  | .unknownLocation place word =>
    s!"{place}: test_files.location '{word}' must be one of " ++
      shownList (TestLocation.all.map fun location => Text.quoted location.name)
  | .hugeNumber => "a whole number is beyond all floating-point numbers"
  | .unwritable => Text.digitsMessage ""
  | .modulePath cause => cause.message
  | .missingFile location => s!"Config file not found: {location}"
  | .unreadable location cause => s!"Cannot read {location}: " ++ cause.message location
  | .inaccessible location cause => cause.message location
  | .encoding cause => cause.message
  | .document name .malformed => s!"{name}: " ++ Yaml.ReadError.malformed.message
  | .document _ cause => cause.message
  | .notMapping name => s!"{name} must be a YAML mapping"

/-- The error is reported to the user and does not stop the program. -/
def isReported : SettingsError → Bool
  | .unorderedSections | .hugeNumber | .unwritable | .encoding _ | .modulePath (.encoding _) | .inaccessible .. => false
  | .document _ cause => cause == .malformed
  | _ => true

end SettingsError

end LayerLint
