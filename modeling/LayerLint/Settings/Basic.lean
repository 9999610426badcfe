import LayerLint.Outcome
import LayerLint.Policy

/-!
# Settings of a project

What a configuration fixes: where source code lies, which rules hold, and how violations are reported. `policy` are
the rules among them, and `standard` holds for a project without a configuration.
-/

namespace LayerLint

namespace Settings

/-- The directories that hold source code where none are given. -/
def standardScanPaths : List String := ["cmd", "pkg", "internal"]

/-- The paths that are passed over where none are given. -/
def standardIgnorePaths : List String := ["vendor", "testdata"]

end Settings

/-- The settings of a project. -/
structure Settings where
  modulePath : String
  /-- The directories that hold source code. -/
  scanPaths : List String := Settings.standardScanPaths
  /-- The paths that are passed over. -/
  ignorePaths : List String := Settings.standardIgnorePaths
  /-- The directories that have to exist, with their purpose. -/
  requiredDirectories : OrderedMap String String := .empty
  allowOtherDirectories : Bool := true
  /-- For a directory or a top-level name, the local paths that files there may import. -/
  directoriesImport : OrderedMap String (List String) := .empty
  detectUnused : Bool := false
  detectSharedImports : Bool := false
  sharedImportsMode : SharedImportsMode := .warn
  sharedImportExclusions : List String := []
  sharedImportExclusionPatterns : List String := []
  lintTestFiles : Bool := false
  testLocation : TestLocation := .colocated
  requireBlackboxTests : Bool := false
  strictTestNaming : Bool := false
  flagMissingTests : Bool := true
  coverageEnabled : Bool := false
  coverageThreshold : Binary64 := Binary64.zero false
  packageThresholds : OrderedMap String Binary64 := .empty
  errorPrompt : ErrorPrompt := {}
  /-- The name of the preset that the configuration was made from. -/
  preset : Option String := none

namespace Settings

/-- The rules that a run checks. -/
def policy (settings : Settings) : Policy :=
  { modulePath := settings.modulePath
    directoriesImport := settings.directoriesImport
    requiredDirectories := settings.requiredDirectories
    allowOtherDirectories := settings.allowOtherDirectories
    detectUnused := settings.detectUnused
    detectSharedImports := settings.detectSharedImports
    sharedImportExclusions := settings.sharedImportExclusions
    sharedImportExclusionPatterns := settings.sharedImportExclusionPatterns
    lintTestFiles := settings.lintTestFiles
    testLocation := settings.testLocation
    requireBlackboxTests := settings.requireBlackboxTests
    strictTestNaming := settings.strictTestNaming
    flagMissingTests := settings.flagMissingTests
    coverageEnabled := settings.coverageEnabled
    coverageThreshold := settings.coverageThreshold
    packageThresholds := settings.packageThresholds }

/-- The settings of a project without a configuration: three layers, and no package of the middle one unused. -/
def standard (modulePath : String) : Settings :=
  { modulePath
    directoriesImport := .ofList [("cmd", ["pkg", "internal"]), ("pkg", ["internal"]), ("internal", ["internal"])]
    detectUnused := true }

/-- The run looks at test files. -/
def includesTests (settings : Settings) : Bool :=
  settings.lintTestFiles || settings.strictTestNaming || settings.requireBlackboxTests

end Settings

end LayerLint
