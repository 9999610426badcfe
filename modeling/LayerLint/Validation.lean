import LayerLint.Rule.Coverage
import LayerLint.Rule.SharedImports
import LayerLint.Rule.Structure
import LayerLint.Rule.TestNaming
import LayerLint.Rule.TestPlacement
import LayerLint.Rule.Unused

/-!
# All rules together

The violations of every rule that the policy has in force, rule by rule. A rule that needs what is not at hand,
a disk or measured coverage, is left out.
-/

namespace LayerLint

/-- A project on a disk. -/
structure Project where
  disk : Disk
  root : Location

/-- The policy has test files checked for their place. -/
def Policy.checksTestLocations (policy : Policy) : Bool :=
  policy.lintTestFiles && policy.testLocation != .anywhere

/-- The violations of a graph under a policy. -/
def validate (graph : Graph) (policy : Policy) (coverage : List PackageCoverage) (project : Option Project) :
    List Violation :=
  (match project with
    | some p => Rule.checkStructure p.disk p.root graph policy
    | none => []) ++
    Rule.checkImports graph policy ++
    (if policy.detectUnused then Rule.detectUnusedPackages graph else []) ++
    (if policy.detectSharedImports then Rule.detectSharedImports graph policy else []) ++
    (if policy.checksTestLocations then Rule.checkTestLocations graph policy else []) ++
    (if policy.requireBlackboxTests then Rule.checkBlackboxTests graph else []) ++
    (if policy.coverageEnabled then Rule.checkCoverage policy coverage else []) ++
    (if policy.strictTestNaming then Rule.checkTestNaming graph policy else [])

/-- The number of rules that a run evaluates, with or without a disk and measured coverage. -/
def countRules (policy : Policy) (withStructure withCoverage : Bool) : Nat :=
  let enabled :=
    [true, !policy.directoriesImport.isEmpty, withStructure && !policy.requiredDirectories.isEmpty,
      policy.detectUnused, policy.detectSharedImports, policy.checksTestLocations, policy.requireBlackboxTests,
      policy.coverageEnabled && withCoverage, policy.strictTestNaming]
  enabled.count true

end LayerLint
