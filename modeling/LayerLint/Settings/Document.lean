import LayerLint.Settings.Basic
import LayerLint.Settings.Section
import LayerLint.Yaml.Merge
import LayerLint.Yaml.Order

/-!
# Settings from a document

A configuration has its sections at the top level, or it has them in a preset and lays overrides over them
(`effective`). `ofEntries` reads the settings and reports the first that is wrong.
-/

namespace LayerLint.Settings

open Yaml

/-- The sections that a preset fixes and overrides may change. -/
def sectionNames : List String := ["structure", "rules", "error_prompt"]

/-- The sections among the entries of a map. -/
def sectionsOf (entries : Section) : Section :=
  sectionNames.filterMap fun name => (lookup? (.text name) entries).map fun value => (.text name, value)

/-- The keys that name no section. -/
def unknownKeys (entries : Section) : List Scalar :=
  (entries.map (·.1)).filter fun key => !sectionNames.any fun name => key == .text name

/-- The name that the section of a preset gives, if any. -/
def presetName (preset : Section) : Except SettingsError (Option String) :=
  match lookup? (.text "name") preset with
  | none => .ok none
  | some value => if value.isFalsy then .ok none else (Section.valueText value).map some

/-- The error for sections among the overrides that are none. -/
def unknownSections (place : String) (unknown : List Scalar) : SettingsError :=
  match Scalar.sorted? unknown with
  | none => .unorderedSections
  | some keys => if keys.all (·.isWritable) then .unknownSections place keys else .unwritable

/-- The sections in force and the name of the preset. -/
def effective (data : Section) (place : String) : Except SettingsError (Section × Option String) :=
  if (lookup? (.text "preset") data).isNone then .ok (sectionsOf data, none)
  else do
    let preset ← data.below place "preset"
    let overrides ← data.below place "overrides"
    match unknownKeys overrides with
    | [] => return (mergeEntries (sectionsOf preset) overrides, ← presetName preset)
    | unknown => throw (unknownSections place unknown)

/-- The mode for shared imports that a section asks for. -/
def sharedModeOf (shared : Section) (place : String) : Except SettingsError SharedImportsMode := do
  let word ← shared.text place "mode"
  if word.isEmpty then return .warn
  match SharedImportsMode.ofName? word with
  | some mode => return mode
  | none => throw (.unknownMode place word)

/-- The place of tests that a section asks for. -/
def testLocationOf (tests : Section) (place : String) : Except SettingsError TestLocation := do
  let word ← tests.text place "location"
  if word.isEmpty then return .colocated
  match TestLocation.ofName? word with
  | some location => return location
  | none => throw (.unknownLocation place word)

/-- The thresholds of single packages. -/
def packageThresholdsOf (coverage : Section) (place : String) : Except SettingsError (OrderedMap String Binary64) := do
  let entries ← coverage.below place "package_thresholds"
  return .ofList (← entries.mapM fun (key, value) => do
    let package ← Section.keyText key
    return (package, ← Section.numberOf place ("package_thresholds." ++ package) value))

/-- The purpose of a required directory, which may be left out. -/
def purposeOf : Value Unit → Except SettingsError String
  | .scalar _ .null => .ok ""
  | value => Section.valueText value

/-- The required directories with their purposes. -/
def requiredDirectoriesOf (structureSection : Section) (place : String) :
    Except SettingsError (OrderedMap String String) := do
  let entries ← structureSection.below place "required_directories"
  return .ofList (← entries.mapM fun (key, value) => return (← Section.keyText key, ← purposeOf value))

/-- The paths that a directory may import. -/
def importsOf (place directory : String) : Value Unit → Except SettingsError (List String)
  | .scalar _ .null => .ok []
  | value =>
    match Section.asTexts? value with
    | some paths => .ok paths
    | none => .error (.notPaths place directory)

/-- The paths that each directory may import. -/
def directoriesImportOf (rules : Section) (place : String) :
    Except SettingsError (OrderedMap String (List String)) := do
  let entries ← rules.below place "directories_import"
  return .ofList (← entries.mapM fun (key, value) => do
    let directory ← Section.keyText key
    return (directory, ← importsOf place directory value))

/-- The texts that accompany a report. -/
def promptOf (prompt : Section) (place : String) : Except SettingsError ErrorPrompt :=
  return {
    enabled := ← prompt.truth place "enabled" false
    architecturalGoals := ← prompt.text place "architectural_goals"
    principles := ← prompt.texts place "principles"
    refactoringGuidance := ← prompt.text place "refactoring_guidance"
    coverageGuidance := ← prompt.text place "coverage_guidance"
    blackboxTestingGuidance := ← prompt.text place "blackbox_testing_guidance" }

/-- The path of the module: the one that is given, or else the one that the project declares. -/
def modulePathOf (data : Section) (declared : Except ModulePath.Error String) (place : String) :
    Except SettingsError String := do
  let given ← data.text place "module"
  if given.isEmpty then declared.mapError .modulePath else return given

/-- The settings that a document gives. -/
def ofEntries (data : Section) (declared : Except ModulePath.Error String) (place : String) :
    Except SettingsError Settings := do
  let (body, preset) ← effective data place
  let structureSection ← body.below place "structure"
  let rules ← body.below place "rules"
  let rulesPlace := place ++ ": rules"
  let shared ← rules.below rulesPlace "shared_external_imports"
  let tests ← rules.below rulesPlace "test_files"
  let coverage ← rules.below rulesPlace "test_coverage"
  let modulePath ← modulePathOf data declared place
  let sharedImportsMode ← sharedModeOf shared place
  let testLocation ← testLocationOf tests place
  let packageThresholds ← packageThresholdsOf coverage place
  return {
    modulePath
    scanPaths := ← data.textsOr place "scan_paths" standardScanPaths
    ignorePaths := ← data.textsOr place "ignore_paths" standardIgnorePaths
    requiredDirectories := ← requiredDirectoriesOf structureSection place
    allowOtherDirectories := ← structureSection.truth place "allow_other_directories" true
    directoriesImport := ← directoriesImportOf rules place
    detectUnused := ← rules.truth place "detect_unused" false
    detectSharedImports := ← shared.truth place "detect" false
    sharedImportsMode
    sharedImportExclusions := ← shared.texts place "exclusions"
    sharedImportExclusionPatterns := ← shared.texts place "exclusion_patterns"
    lintTestFiles := ← tests.truth place "lint" false
    testLocation
    requireBlackboxTests := ← tests.truth place "require_blackbox" false
    strictTestNaming := ← tests.truth place "strict_naming" false
    flagMissingTests := ← tests.truth place "flag_missing_tests" true
    coverageEnabled := ← coverage.truth place "enabled" false
    coverageThreshold := ← coverage.number place "threshold" (Binary64.zero false)
    packageThresholds
    errorPrompt := ← promptOf (← body.below place "error_prompt") place
    preset }

end LayerLint.Settings
