/-!
# Violations

A violation says which rule a file or directory breaks and how to mend it.
-/

namespace LayerLint

/-- The kind of rule that is broken. -/
inductive ViolationKind where
  | pkgToPkg
  | skipLevel
  | crossEntryPoint
  | unusedPackage
  | forbiddenImport
  | missingDirectory
  | unexpectedDirectory
  | emptyDirectory
  | unusedDirectory
  | sharedExternalImport
  | testFileLocation
  | whiteboxTest
  | insufficientCoverage
  | testNamingConvention
deriving DecidableEq, Repr

namespace ViolationKind

/-- Every kind, in the order of the reports' legend. -/
def all : List ViolationKind :=
  [.pkgToPkg, .skipLevel, .crossEntryPoint, .unusedPackage, .forbiddenImport, .missingDirectory,
    .unexpectedDirectory, .emptyDirectory, .unusedDirectory, .sharedExternalImport, .testFileLocation,
    .whiteboxTest, .insufficientCoverage, .testNamingConvention]

theorem mem_all (kind : ViolationKind) : kind ∈ all := by cases kind <;> decide

/-- The name of the kind in machine-readable reports. -/
def code : ViolationKind → String
  | .pkgToPkg => "PkgToPkg"
  | .skipLevel => "SkipLevel"
  | .crossEntryPoint => "CrossEntryPoint"
  | .unusedPackage => "UnusedPackage"
  | .forbiddenImport => "ForbiddenImport"
  | .missingDirectory => "MissingDirectory"
  | .unexpectedDirectory => "UnexpectedDirectory"
  | .emptyDirectory => "EmptyDirectory"
  | .unusedDirectory => "UnusedDirectory"
  | .sharedExternalImport => "SharedExternalImport"
  | .testFileLocation => "TestFileLocation"
  | .whiteboxTest => "WhiteboxTest"
  | .insufficientCoverage => "InsufficientCoverage"
  | .testNamingConvention => "TestNamingConvention"

/-- The title of the kind in reports for people. -/
def label : ViolationKind → String
  | .pkgToPkg => "Forbidden pkg-to-pkg Dependency"
  | .skipLevel => "Skip-level Import"
  | .crossEntryPoint => "Cross-cmd Dependency"
  | .unusedPackage => "Unused Package"
  | .forbiddenImport => "Forbidden Import"
  | .missingDirectory => "Missing Required Directory"
  | .unexpectedDirectory => "Unexpected Directory"
  | .emptyDirectory => "Empty Required Directory"
  | .unusedDirectory => "Unused Required Directory"
  | .sharedExternalImport => "Shared External Import"
  | .testFileLocation => "Test File Wrong Location"
  | .whiteboxTest => "Whitebox Test"
  | .insufficientCoverage => "Insufficient Test Coverage"
  | .testNamingConvention => "Test Naming Convention"

/-- The kind is about coverage, placement or naming of tests. -/
def isTestRelated : ViolationKind → Bool
  | .insufficientCoverage | .testFileLocation | .testNamingConvention => true
  | _ => false

end ViolationKind

/-- A broken rule. -/
structure Violation where
  kind : ViolationKind
  /-- The file, directory or package at fault. -/
  file : String
  issue : String
  rule : String
  fix : String
  /-- The line at fault, 0 where there is none. -/
  line : Int := 0
deriving DecidableEq, Repr

end LayerLint
