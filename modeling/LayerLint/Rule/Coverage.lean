import LayerLint.Binary64.Decimal
import LayerLint.Path
import LayerLint.Policy
import LayerLint.Violation

/-!
# Coverage thresholds

The threshold of a package is that of the nearest directory at or above it that has one, else the default. A
package whose coverage is below its threshold is reported.
-/

namespace LayerLint.Rule

/-- The path of a package inside the module; a path outside it stays as it is. -/
def pathOfPackage (packagePath modulePath : String) : String :=
  if modulePath.isEmpty then packagePath
  else if packagePath == modulePath then Path.rootDir
  else (Path.below? modulePath packagePath).getD packagePath

/-- The path made of the first `n` segments. -/
def leadingPath (segments : List String) (n : Nat) : String := Text.join "/" (segments.take n)

/-- The first value found for the path of `n` segments, or of fewer. -/
def nearestValue? (overrides : OrderedMap String Binary64) (segments : List String) : Nat → Option Binary64
  | 0 => none
  | n + 1 =>
    match overrides.find? (leadingPath segments (n + 1)) with
    | some value => some value
    | none => nearestValue? overrides segments n

/-- The threshold of a package: the override of the longest path at or above it, else the default. -/
def thresholdOf (packagePath modulePath : String) (default : Binary64) (overrides : OrderedMap String Binary64) :
    Binary64 :=
  let segments := Path.segments (pathOfPackage packagePath modulePath)
  (nearestValue? overrides segments segments.length).getD default

/-- The report of a package below its threshold. -/
def insufficientCoverage (result : PackageCoverage) (threshold : Binary64) : Violation :=
  let package := result.packagePath
  let percent := threshold.fixed 0
  let measured := result.coverage.fixed 1
  { kind := .insufficientCoverage
    file := package
    issue :=
      if result.hasTests then s!"Package coverage {measured}% is below threshold {percent}%"
      else s!"Package has no tests (0% coverage, threshold: {percent}%)"
    rule := s!"Minimum test coverage: {percent}% (hierarchical threshold)"
    fix :=
      if result.hasTests then
        "Improve test coverage for this package:\n" ++
          s!"1. Run 'go test -cover {package}' to see current coverage\n" ++
          s!"2. Run 'go test -coverprofile=coverage.out {package} && " ++
          "go tool cover -html=coverage.out' to see detailed coverage\n" ++
          "3. Add tests for uncovered code paths\n" ++
          "4. Consider table-driven tests for better coverage"
      else
        "Add test files for this package:\n" ++
          s!"1. Create {package}_test.go files in the package directory\n" ++
          "2. Write tests for the exported API\n" ++
          "3. Run 'go test ./...' to verify" }

/-- The violation of one measured package, if it is below its threshold. -/
def checkPackageCoverage (policy : Policy) (result : PackageCoverage) : List Violation :=
  let threshold := thresholdOf result.packagePath policy.modulePath policy.coverageThreshold policy.packageThresholds
  if result.coverage.lt threshold then [insufficientCoverage result threshold] else []

/-- The violations of every measured package. -/
def checkCoverage (policy : Policy) (results : List PackageCoverage) : List Violation :=
  results.flatMap (checkPackageCoverage policy)

end LayerLint.Rule
