import LayerLint.Violation

/-!
# The names of kinds

Reports name the kind of a violation: by a code for programs, and by a title for people (`Names`, `names_iff`). No two
kinds have a name in common (`Names.kind_eq`), so a report tells what kind a violation is of.
-/

namespace LayerLint.Report

/-- The kinds, each with its code and its title. -/
def kindNames : List (ViolationKind × String × String) :=
  [(.pkgToPkg, "PkgToPkg", "Forbidden pkg-to-pkg Dependency"),
    (.skipLevel, "SkipLevel", "Skip-level Import"),
    (.crossEntryPoint, "CrossEntryPoint", "Cross-cmd Dependency"),
    (.unusedPackage, "UnusedPackage", "Unused Package"),
    (.forbiddenImport, "ForbiddenImport", "Forbidden Import"),
    (.missingDirectory, "MissingDirectory", "Missing Required Directory"),
    (.unexpectedDirectory, "UnexpectedDirectory", "Unexpected Directory"),
    (.emptyDirectory, "EmptyDirectory", "Empty Required Directory"),
    (.unusedDirectory, "UnusedDirectory", "Unused Required Directory"),
    (.sharedExternalImport, "SharedExternalImport", "Shared External Import"),
    (.testFileLocation, "TestFileLocation", "Test File Wrong Location"),
    (.whiteboxTest, "WhiteboxTest", "Whitebox Test"),
    (.insufficientCoverage, "InsufficientCoverage", "Insufficient Test Coverage"),
    (.testNamingConvention, "TestNamingConvention", "Test Naming Convention")]

/-- A kind has a code and a title. -/
def Names (kind : ViolationKind) (code title : String) : Prop := (kind, code, title) ∈ kindNames

variable {kind kind' : ViolationKind} {code code' title title' : String}

theorem names_iff : Names kind code title ↔ code = kind.code ∧ title = kind.label := by
  cases kind <;> simp [Names, kindNames, ViolationKind.code, ViolationKind.label]

theorem names_self (kind : ViolationKind) : Names kind kind.code kind.label := names_iff.mpr ⟨rfl, rfl⟩

/-- **No two kinds have a code or a title in common.** -/
theorem Names.kind_eq (h : Names kind code title) (h' : Names kind' code' title')
    (hsame : code = code' ∨ title = title') : kind = kind' := by
  have hall : ∀ a ∈ ViolationKind.all, ∀ b ∈ ViolationKind.all, a.code = b.code ∨ a.label = b.label → a = b := by
    decide +kernel
  obtain ⟨rfl, rfl⟩ := names_iff.mp h
  obtain ⟨rfl, rfl⟩ := names_iff.mp h'
  exact hall kind kind.mem_all kind' kind'.mem_all hsame

end LayerLint.Report
