import LayerLint.Coverage.Summary
import LayerLint.Graph
import LayerLint.Violation

/-!
# The outcome of a run

What a run of the linter found, and whether it fails: shared third-party imports count as warnings unless the
configuration makes them errors; every other violation is an error.
-/

namespace LayerLint

/-- How shared third-party imports are reported. -/
inductive SharedImportsMode where
  | warn
  | error
deriving DecidableEq, Repr

namespace SharedImportsMode

/-- The word for a mode in configurations. -/
def name : SharedImportsMode → String
  | .warn => "warn"
  | .error => "error"

/-- The mode that a word stands for. -/
def ofName? (word : String) : Option SharedImportsMode := [warn, error].find? (·.name == word)

end SharedImportsMode

/-- The texts that accompany a report: what the architecture is for and how to get there. -/
structure ErrorPrompt where
  enabled : Bool := false
  architecturalGoals : String := ""
  principles : List String := []
  refactoringGuidance : String := ""
  coverageGuidance : String := ""
  blackboxTestingGuidance : String := ""
deriving DecidableEq, Repr

/-- What a run found. -/
structure Outcome where
  violations : List Violation
  filesScanned : Int := 0
  rulesEvaluated : Int := 0
  /-- The time that the run took, in milliseconds. -/
  elapsed : Binary64 := Binary64.zero false
  sharedImportsMode : SharedImportsMode := .warn
  errorPrompt : ErrorPrompt := {}
  preset : Option String := none
  coverage : List PackageCoverage := []
  summaries : List Coverage.DirectorySummary := []
  /-- The mean coverage, if coverage was measured. -/
  overallCoverage : Option Binary64 := none

namespace Outcome

/-- The violation does not make the run fail. -/
def isWarning (outcome : Outcome) (violation : Violation) : Bool :=
  violation.kind == .sharedExternalImport && outcome.sharedImportsMode != .error

/-- Some violation makes the run fail: one that is about no shared import, or any where these are errors. -/
def shouldFail (outcome : Outcome) : Bool :=
  outcome.violations.any fun violation =>
    violation.kind != .sharedExternalImport || outcome.sharedImportsMode == .error

/-- A run fails where not all of its violations are warnings. -/
theorem shouldFail_iff {outcome : Outcome} :
    outcome.shouldFail = true ↔ ∃ violation ∈ outcome.violations, outcome.isWarning violation = false := by
  simp only [shouldFail, isWarning, List.any_eq_true, Bool.or_eq_true, Bool.and_eq_false_iff, bne_iff_ne, ne_eq,
    beq_iff_eq, beq_eq_false_iff_ne, bne_eq_false_iff_eq]

end Outcome

end LayerLint
