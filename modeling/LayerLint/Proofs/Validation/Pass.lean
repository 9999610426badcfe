import LayerLint.Validation
import Mathlib.Data.List.Basic

/-!
# The passes of a run

Beside the graph, a run of the rules is given a policy, measured coverage and a project (`Run`). It is made of passes
that know nothing of one another: its violations are theirs, pass by pass (`Run.violations_eq_flatMap`), and runs that
differ in one pass only differ in its violations (`Run.map_violations_eq_iff`). Every kind of violation comes from one
pass only (`Pass.ofKind_kind`).
-/

namespace LayerLint

/-- What the rules are given beside the graph. -/
structure Run where
  policy : Policy
  coverage : List PackageCoverage
  project : Option Project

/-- The violations of a graph in a run. -/
def Run.violations (run : Run) (graph : Graph) : List Violation :=
  validate graph run.policy run.coverage run.project

/-- A part of a run. -/
inductive Pass where
  | directories
  | imports
  | unusedPackages
  | sharedImports
  | testLocations
  | blackboxTests
  | coverage
  | testNaming
deriving DecidableEq, Repr

namespace Pass

/-- Every pass, in the order of a run. -/
def all : List Pass :=
  [.directories, .imports, .unusedPackages, .sharedImports, .testLocations, .blackboxTests, .coverage, .testNaming]

/-- The pass that reports violations of a kind. -/
def ofKind : ViolationKind → Pass
  | .missingDirectory | .emptyDirectory | .unusedDirectory | .unexpectedDirectory => .directories
  | .crossEntryPoint | .skipLevel | .pkgToPkg | .forbiddenImport => .imports
  | .unusedPackage => .unusedPackages
  | .sharedExternalImport => .sharedImports
  | .testFileLocation => .testLocations
  | .whiteboxTest => .blackboxTests
  | .insufficientCoverage => .coverage
  | .testNamingConvention => .testNaming

/-- What a pass reports. -/
def violations (graph : Graph) (run : Run) : Pass → List Violation
  | .directories =>
    match run.project with
    | some p => Rule.checkStructure p.disk p.root graph run.policy
    | none => []
  | .imports => Rule.checkImports graph run.policy
  | .unusedPackages => if run.policy.detectUnused then Rule.detectUnusedPackages graph else []
  | .sharedImports => if run.policy.detectSharedImports then Rule.detectSharedImports graph run.policy else []
  | .testLocations => if run.policy.checksTestLocations then Rule.checkTestLocations graph run.policy else []
  | .blackboxTests => if run.policy.requireBlackboxTests then Rule.checkBlackboxTests graph else []
  | .coverage => if run.policy.coverageEnabled then Rule.checkCoverage run.policy run.coverage else []
  | .testNaming => if run.policy.strictTestNaming then Rule.checkTestNaming graph run.policy else []

end Pass

/-- **The violations of a run are those of its passes**, one pass after another. -/
theorem Run.violations_eq_flatMap (run : Run) (graph : Graph) :
    run.violations graph = Pass.all.flatMap (Pass.violations graph run) := by
  simp only [Pass.all, List.flatMap_cons, List.flatMap_nil, List.append_nil, Pass.violations, ← List.append_assoc]
  rfl

/-- **Runs that differ in one pass** have the same violations as far as those of the pass are the same. -/
theorem Run.map_violations_eq_iff {β : Type} (f : Violation → β) (graph : Graph) (run run' : Run) (pass : Pass)
    (hothers : ∀ other, other ≠ pass → other.violations graph run' = other.violations graph run) :
    (run'.violations graph).map f = (run.violations graph).map f ↔
      (pass.violations graph run').map f = (pass.violations graph run).map f := by
  have hall : pass ∈ Pass.all := by cases pass <;> decide
  have hnodup : Pass.all.Nodup := by decide
  obtain ⟨before, after, hpasses⟩ := List.append_of_mem hall
  rw [hpasses] at hnodup
  obtain ⟨-, hafter, hapart⟩ := List.nodup_append.mp hnodup
  have hbefore : before.flatMap (Pass.violations graph run') = before.flatMap (Pass.violations graph run) :=
    List.flatMap_congr fun other hother => hothers other (hapart other hother pass List.mem_cons_self)
  have hmore : after.flatMap (Pass.violations graph run') = after.flatMap (Pass.violations graph run) :=
    List.flatMap_congr fun other hother => hothers other fun heq =>
      (List.nodup_cons.mp hafter).1 (heq ▸ hother)
  rw [run.violations_eq_flatMap, run'.violations_eq_flatMap, hpasses]
  simp only [List.flatMap_append, List.flatMap_cons, List.map_append, hbefore, hmore, List.append_right_inj,
    List.append_left_inj]

/-! ## The kinds that a pass reports -/

namespace Rule

variable {graph : Graph} {policy : Policy} {violation : Violation}

theorem kind_of_presenceViolation? {directory purpose : String} {presence : Presence}
    (h : presenceViolation? directory purpose presence = some violation) :
    violation.kind = .missingDirectory ∨ violation.kind = .emptyDirectory := by
  cases presence <;> simp only [presenceViolation?, Option.some.injEq, reduceCtorEq] at h
  case missing => exact Or.inl (by rw [← h])
  case notDirectory => exact Or.inl (by rw [← h])
  case empty => exact Or.inr (by rw [← h])

theorem kind_of_mem_detectUnusedDirectories {required : List (String × String)}
    (h : violation ∈ detectUnusedDirectories graph required) : violation.kind = .unusedDirectory := by
  obtain ⟨entry, -, rfl⟩ := List.mem_map.mp h
  rfl

theorem kind_of_mem_detectUnexpectedDirectories {disk : Disk} {root : Location}
    (h : violation ∈ detectUnexpectedDirectories disk root policy) : violation.kind = .unexpectedDirectory := by
  obtain ⟨name, -, rfl⟩ := List.mem_map.mp h
  rfl

theorem ofKind_of_mem_checkStructure {disk : Disk} {root : Location}
    (h : violation ∈ checkStructure disk root graph policy) : Pass.ofKind violation.kind = .directories := by
  unfold checkStructure at h
  dsimp only at h
  split at h
  · cases h
  · rw [List.mem_append, List.mem_append] at h
    rcases h with (h | h) | h
    · obtain ⟨entry, -, hreport⟩ := List.mem_filterMap.mp h
      rcases kind_of_presenceViolation? hreport with hkind | hkind <;> simp [hkind, Pass.ofKind]
    · simp [kind_of_mem_detectUnusedDirectories h, Pass.ofKind]
    · split at h
      · cases h
      · simp [kind_of_mem_detectUnexpectedDirectories h, Pass.ofKind]

theorem kind_of_mem_checkEntryPoint {file directory path : String}
    (h : violation ∈ checkEntryPoint file directory path) : violation.kind = .crossEntryPoint := by
  unfold checkEntryPoint at h
  split at h
  · cases h
  · rw [List.mem_singleton.mp h]

theorem kind_of_mem_checkLibrary {file directory path : String}
    (h : violation ∈ checkLibrary file directory path) : violation.kind = .skipLevel ∨ violation.kind = .pkgToPkg := by
  unfold checkLibrary at h
  split at h
  · cases h
  · split at h
    · exact Or.inl (by rw [List.mem_singleton.mp h])
    · exact Or.inr (by rw [List.mem_singleton.mp h])

theorem kind_of_mem_checkDirectoryPolicy {file directory path : String}
    (h : violation ∈ checkDirectoryPolicy policy file directory path) : violation.kind = .forbiddenImport := by
  unfold checkDirectoryPolicy at h
  split at h
  · cases h
  · split at h
    · cases h
    · rw [List.mem_singleton.mp h]

theorem ofKind_of_mem_checkImports (h : violation ∈ checkImports graph policy) :
    Pass.ofKind violation.kind = .imports := by
  obtain ⟨node, -, h⟩ := List.mem_flatMap.mp h
  obtain ⟨path, -, h⟩ := List.mem_flatMap.mp h
  unfold checkImport at h
  dsimp only at h
  split at h
  · cases h
  · rw [List.mem_append, List.mem_append] at h
    rcases h with (h | h) | h
    · split at h
      · simp [kind_of_mem_checkEntryPoint h, Pass.ofKind]
      · cases h
    · split at h
      · rcases kind_of_mem_checkLibrary h with hkind | hkind <;> simp [hkind, Pass.ofKind]
      · cases h
    · simp [kind_of_mem_checkDirectoryPolicy h, Pass.ofKind]

theorem kind_of_mem_detectUnusedPackages (h : violation ∈ detectUnusedPackages graph) :
    violation.kind = .unusedPackage := by
  obtain ⟨directory, -, rfl⟩ := List.mem_map.mp h
  rfl

theorem kind_of_mem_detectSharedImports (h : violation ∈ detectSharedImports graph policy) :
    violation.kind = .sharedExternalImport := by
  obtain ⟨package, -, h⟩ := List.mem_flatMap.mp h
  dsimp only at h
  split at h
  · cases h
  · split at h
    · cases h
    · obtain ⟨first, -, rfl⟩ := List.mem_map.mp h
      rfl

theorem kind_of_mem_checkTestLocations (h : violation ∈ checkTestLocations graph policy) :
    violation.kind = .testFileLocation := by
  obtain ⟨node, -, h⟩ := List.mem_flatMap.mp h
  unfold checkTestLocation at h
  split at h
  · rw [List.mem_singleton.mp h]
  · rw [List.mem_singleton.mp h]
  · cases h

theorem kind_of_mem_checkBlackboxTests (h : violation ∈ checkBlackboxTests graph) :
    violation.kind = .whiteboxTest := by
  obtain ⟨node, -, rfl⟩ := List.mem_map.mp h
  rfl

theorem kind_of_mem_checkCoverage {results : List PackageCoverage} (h : violation ∈ checkCoverage policy results) :
    violation.kind = .insufficientCoverage := by
  obtain ⟨result, -, h⟩ := List.mem_flatMap.mp h
  unfold checkPackageCoverage at h
  dsimp only at h
  split at h
  · rw [List.mem_singleton.mp h]
    rfl
  · cases h

theorem kind_of_mem_checkGroup {flagMissingTests : Bool} {group : FileGroup}
    (h : violation ∈ checkGroup flagMissingTests group) : violation.kind = .testNamingConvention := by
  have hreport : ∀ {files : List String} {report : String → Violation},
      (∀ file, (report file).kind = .testNamingConvention) → violation ∈ files.map report →
        violation.kind = .testNamingConvention := by
    intro files report hkind hmem
    obtain ⟨file, -, rfl⟩ := List.mem_map.mp hmem
    exact hkind file
  unfold checkGroup at h
  rw [List.mem_append, List.mem_append, List.mem_append] at h
  rcases h with ((h | h) | h) | h
  · exact hreport (fun _ => rfl) h
  · split at h
    · exact hreport (fun _ => rfl) h
    · cases h
  · split at h
    · exact hreport (fun _ => rfl) h
    · cases h
  · split at h
    · exact hreport (fun _ => rfl) h
    · cases h

theorem kind_of_mem_checkTestNaming (h : violation ∈ checkTestNaming graph policy) :
    violation.kind = .testNamingConvention := by
  obtain ⟨group, -, h⟩ := List.mem_flatMap.mp h
  exact kind_of_mem_checkGroup h

end Rule

/-- What stands in a list that a condition puts in force stands in the list. -/
theorem mem_of_mem_ite {α : Type} {x : α} {l : List α} {inForce : Bool} (h : x ∈ if inForce then l else []) :
    x ∈ l := by
  split at h
  · exact h
  · cases h

/-- **Every kind of violation comes from one pass only.** -/
theorem Pass.ofKind_kind {graph : Graph} {run : Run} {violation : Violation} {pass : Pass}
    (h : violation ∈ pass.violations graph run) : Pass.ofKind violation.kind = pass := by
  cases pass with
  | directories =>
    simp only [violations] at h
    split at h
    · exact Rule.ofKind_of_mem_checkStructure h
    · cases h
  | imports => exact Rule.ofKind_of_mem_checkImports h
  | unusedPackages => rw [Rule.kind_of_mem_detectUnusedPackages (mem_of_mem_ite h), ofKind]
  | sharedImports => rw [Rule.kind_of_mem_detectSharedImports (mem_of_mem_ite h), ofKind]
  | testLocations => rw [Rule.kind_of_mem_checkTestLocations (mem_of_mem_ite h), ofKind]
  | blackboxTests => rw [Rule.kind_of_mem_checkBlackboxTests (mem_of_mem_ite h), ofKind]
  | coverage => rw [Rule.kind_of_mem_checkCoverage (mem_of_mem_ite h), ofKind]
  | testNaming => rw [Rule.kind_of_mem_checkTestNaming (mem_of_mem_ite h), ofKind]

end LayerLint
