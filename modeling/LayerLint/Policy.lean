import LayerLint.OrderedMap
import LayerLint.Binary64.Basic

/-!
# The policy of a project

Which rules are in force and what they allow. Every check is off unless the policy switches it on.
-/

namespace LayerLint

/-- Where test files belong. -/
inductive TestLocation where
  | colocated
  | separate
  | anywhere
deriving DecidableEq, Repr

namespace TestLocation

/-- The word that stands for a location in configurations. -/
def name : TestLocation → String
  | .colocated => "colocated"
  | .separate => "separate"
  | .anywhere => "any"

/-- Every location. -/
def all : List TestLocation := [.colocated, .separate, .anywhere]

/-- The location that a word stands for. -/
def ofName? (word : String) : Option TestLocation := all.find? (·.name == word)

theorem ofName?_name (location : TestLocation) : ofName? location.name = some location := by
  cases location <;> decide

end TestLocation

/-- The rules of a project. -/
structure Policy where
  modulePath : String := ""
  /-- For a directory or a top-level name, the local paths that files there may import. -/
  directoriesImport : OrderedMap String (List String) := .empty
  /-- The directories that have to exist, with their purpose. -/
  requiredDirectories : OrderedMap String String := .empty
  allowOtherDirectories : Bool := true
  detectUnused : Bool := false
  detectSharedImports : Bool := false
  sharedImportExclusions : List String := []
  sharedImportExclusionPatterns : List String := []
  lintTestFiles : Bool := false
  testLocation : TestLocation := .anywhere
  requireBlackboxTests : Bool := false
  strictTestNaming : Bool := false
  flagMissingTests : Bool := false
  coverageEnabled : Bool := false
  coverageThreshold : Binary64 := Binary64.zero false
  packageThresholds : OrderedMap String Binary64 := .empty

namespace Policy

/-- The entry of the directory policy for a file: that of its directory, else that of its top-level directory. -/
def allowedImports? (policy : Policy) (directory topLevel : String) : Option (String × List String) :=
  match policy.directoriesImport.find? directory with
  | some allowed => some (directory, allowed)
  | none => (policy.directoriesImport.find? topLevel).map fun allowed => (topLevel, allowed)

end Policy

/-- The measured coverage of a package, in percent. -/
structure PackageCoverage where
  packagePath : String
  coverage : Binary64
  hasTests : Bool
deriving DecidableEq, Repr

end LayerLint
