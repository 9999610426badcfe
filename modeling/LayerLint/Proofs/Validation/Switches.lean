import LayerLint.Proofs.Validation.Pass

/-!
# Switching rules off

A switch belongs to one pass (`Switch.pass`): the other passes do not read it (`violations_of_ne`), and what it takes
from its own pass are the violations of its kinds (`violations_pass`). So to turn a switch off is to delete these from
the violations of the run, and all others stay where they are (`turnOff_deletes_kinds`).
-/

namespace LayerLint

/-- What puts rules in force. -/
inductive Switch where
  | unusedPackages
  | sharedImports
  | testLocations
  | blackboxTests
  | coverage
  | measuredCoverage
  | testNaming
  | project
  | otherDirectories
deriving DecidableEq, Repr

namespace Switch

/-- The run with the switch off. Coverage is also off where none was measured, directories are not looked at without a
project, and none of them is unexpected where others are allowed. -/
def turnOff (run : Run) : Switch → Run
  | .unusedPackages => { run with policy := { run.policy with detectUnused := false } }
  | .sharedImports => { run with policy := { run.policy with detectSharedImports := false } }
  | .testLocations => { run with policy := { run.policy with lintTestFiles := false } }
  | .blackboxTests => { run with policy := { run.policy with requireBlackboxTests := false } }
  | .coverage => { run with policy := { run.policy with coverageEnabled := false } }
  | .measuredCoverage => { run with coverage := [] }
  | .testNaming => { run with policy := { run.policy with strictTestNaming := false } }
  | .project => { run with project := none }
  | .otherDirectories => { run with policy := { run.policy with allowOtherDirectories := true } }

/-- The kinds of violations that a switch puts in force. -/
def kinds : Switch → List ViolationKind
  | .unusedPackages => [.unusedPackage]
  | .sharedImports => [.sharedExternalImport]
  | .testLocations => [.testFileLocation]
  | .blackboxTests => [.whiteboxTest]
  | .coverage | .measuredCoverage => [.insufficientCoverage]
  | .testNaming => [.testNamingConvention]
  | .project => [.missingDirectory, .unexpectedDirectory, .emptyDirectory, .unusedDirectory]
  | .otherDirectories => [.unexpectedDirectory]

/-- The pass that a switch belongs to. -/
def pass : Switch → Pass
  | .unusedPackages => .unusedPackages
  | .sharedImports => .sharedImports
  | .testLocations => .testLocations
  | .blackboxTests => .blackboxTests
  | .coverage | .measuredCoverage => .coverage
  | .testNaming => .testNaming
  | .project | .otherDirectories => .directories

variable {run : Run} {graph : Graph} {switch : Switch} {pass : Pass} {kind : ViolationKind}

/-- The kinds of a switch come from its pass. -/
theorem ofKind_of_mem_kinds (h : kind ∈ switch.kinds) : Pass.ofKind kind = switch.pass := by
  revert h
  cases switch <;> cases kind <;> decide

/-- A switch other than that for unexpected directories has all kinds of its pass. -/
theorem mem_kinds (hswitch : switch ≠ .otherDirectories) (h : Pass.ofKind kind = switch.pass) :
    kind ∈ switch.kinds := by
  revert hswitch h
  cases switch <;> cases kind <;> decide

/-- **No pass reads the switch of another.** -/
theorem violations_of_ne (h : pass ≠ switch.pass) :
    pass.violations graph (switch.turnOff run) = pass.violations graph run := by
  cases switch <;> cases pass
  all_goals first
    | exact absurd rfl h
    | rfl

/-- A pass reports nothing when its switch is off. -/
theorem violations_pass_eq_nil (hswitch : switch ≠ .otherDirectories) :
    switch.pass.violations graph (switch.turnOff run) = [] := by
  cases switch with
  | otherDirectories => exact absurd rfl hswitch
  | measuredCoverage =>
    show (if run.policy.coverageEnabled then Rule.checkCoverage run.policy [] else []) = []
    split <;> rfl
  | _ => rfl

/-- Where other directories are allowed, the unexpected ones are missing from the report. -/
theorem checkStructure_allowing {disk : Disk} {root : Location} {policy : Policy} :
    Rule.checkStructure disk root graph { policy with allowOtherDirectories := true } =
      (Rule.checkStructure disk root graph policy).filter fun v => v.kind ∉ kinds .otherDirectories := by
  have hkeep : ∀ {l : List Violation}, (∀ v ∈ l, v.kind ≠ .unexpectedDirectory) →
      l.filter (fun v => v.kind ∉ kinds .otherDirectories) = l := by
    intro l h
    apply List.filter_eq_self.mpr
    intro v hv
    simpa [kinds] using h v hv
  unfold Rule.checkStructure
  dsimp only
  split
  · rfl
  · rw [List.filter_append, List.filter_append, hkeep, hkeep]
    · congr 1
      symm
      apply List.filter_eq_nil_iff.mpr
      intro v hv
      split at hv
      · cases hv
      · simp [kinds, Rule.kind_of_mem_detectUnexpectedDirectories hv]
    · intro v hv
      simp [Rule.kind_of_mem_detectUnusedDirectories hv]
    · intro v hv
      obtain ⟨entry, -, hreport⟩ := List.mem_filterMap.mp hv
      rcases Rule.kind_of_presenceViolation? hreport with hkind | hkind <;> simp [hkind]

/-- What a switch takes from its pass are the violations of its kinds. -/
theorem violations_pass (switch : Switch) (run : Run) (graph : Graph) :
    switch.pass.violations graph (switch.turnOff run) =
      (switch.pass.violations graph run).filter fun v => v.kind ∉ switch.kinds := by
  by_cases hswitch : switch = .otherDirectories
  · subst hswitch
    simp only [Switch.pass, Pass.violations, turnOff]
    split
    · exact checkStructure_allowing
    · rfl
  · rw [violations_pass_eq_nil hswitch]
    symm
    apply List.filter_eq_nil_iff.mpr
    intro v hv
    simpa using mem_kinds hswitch (Pass.ofKind_kind hv)

/-- **To turn a switch off is to delete its kinds.** The violations of all other kinds are the same, in the same
order. -/
theorem turnOff_deletes_kinds (switch : Switch) (graph : Graph) (run : Run) :
    (switch.turnOff run).violations graph = (run.violations graph).filter fun v => v.kind ∉ switch.kinds := by
  rw [Run.violations_eq_flatMap, Run.violations_eq_flatMap, List.filter_flatMap]
  congr 1
  funext pass
  by_cases h : pass = switch.pass
  · rw [h]
    exact violations_pass switch run graph
  · rw [violations_of_ne h]
    symm
    apply List.filter_eq_self.mpr
    intro v hv
    rw [decide_eq_true_eq]
    intro hkind
    exact h ((Pass.ofKind_kind hv).symm.trans (ofKind_of_mem_kinds hkind))

end Switch

end LayerLint
