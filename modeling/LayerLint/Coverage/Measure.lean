import LayerLint.Coverage.Output
import LayerLint.Coverage.Packages
import LayerLint.Log
import LayerLint.Policy

/-!
# Measuring coverage

The tests of every package are run, and what a run prints gives the coverage. A package whose tests cannot be run
has none.
-/

namespace LayerLint.Coverage

/-- How running the tests of a package ends. -/
inductive TestRun where
  | finished (output errors : String) (code : Int)
  | timedOut
  | impossible (reason : String)
  /-- The path of the package has a NUL character, so the program cannot be called with it. -/
  | notCallable
  /-- What is printed is no text. -/
  | garbled (cause : Text.DecodeError)
deriving DecidableEq, Repr

/-- The program that runs tests: how it ends for each package. -/
abbrev TestRunner := String → TestRun

/-- The error that there is no program to run tests. -/
def noRunner : String := "go binary not found on PATH"

/-- Why coverage cannot be measured. -/
inductive MeasureError where
  | noRunner
  | inaccessible (cause : Disk.LocatedError)
  | notCallable
  | encoding (cause : Text.DecodeError)
deriving DecidableEq, Repr

/-- The wording of the error. -/
def MeasureError.message : MeasureError → String
  | .noRunner => Coverage.noRunner
  | .inaccessible cause => cause.message
  | .notCallable => "embedded null byte"
  | .encoding cause => cause.message

/-- A warning about the coverage of a package. -/
def warning (message : String) : LogRecord := ⟨.warning, .coverage, message⟩

/-- The coverage of a package from the run of its tests, and the warnings about it. -/
def rowOf (package : String) (run : TestRun) : Except MeasureError (PackageCoverage × List LogRecord) :=
  let untested : PackageCoverage := ⟨package, Binary64.zero false, false⟩
  match run with
  | .notCallable => .error .notCallable
  | .garbled cause => .error (.encoding cause)
  | .timedOut => .ok (untested, [warning s!"go test timed out for {package}"])
  | .impossible reason => .ok (untested, [warning s!"Cannot run go test for {package}: {reason}"])
  | .finished output errors code =>
    let (percent, hasTests) := parseOutput (output ++ errors)
    .ok (⟨package, percent, hasTests⟩,
      if code ≠ 0 ∧ hasTests then [warning s!"go test failed for {package}"] else [])

/-- Measures the coverage of a package. -/
def measurePackage (package : String) (run : TestRun) : Logged MeasureError PackageCoverage := do
  let (row, warnings) ← .ofExcept (rowOf package run)
  .notes warnings
  return row

/-- The coverage of every package below the scanned directories. -/
def measure (disk : Disk) (root : Location) (modulePath : String) (scanPaths : List String)
    (runner : Option TestRunner) : Logged MeasureError (List PackageCoverage) := do
  match runner with
  | none => .ofExcept (.error .noRunner)
  | some run =>
    let packages ← .ofExcept ((findPackages disk root modulePath scanPaths).mapError .inaccessible)
    .note .debug .coverage s!"Measuring coverage for {packages.length} packages"
    packages.mapM fun package => measurePackage package (run package)

end LayerLint.Coverage
