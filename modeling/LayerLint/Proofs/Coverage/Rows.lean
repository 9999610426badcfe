import LayerLint.Coverage.Measure
import LayerLint.Proofs.Coverage.Packages

/-!
# The rows of a measurement

Each package has one row, in the order of the packages, and the row is read from the run of its own tests
(`measure_eq_ok_iff`), if all of these runs print text. A run that fails has no coverage, unless its output tells one
(`measure_rows`).
-/

namespace LayerLint.Coverage

namespace TestRun

/-- A run prints text or nothing. -/
def IsReadable : TestRun → Prop
  | .finished .. | .timedOut | .impossible _ => True
  | .notCallable | .garbled _ => False

/-- What a run prints; a run that does not end prints nothing. -/
def printed : TestRun → String
  | .finished output errors _ => output ++ errors
  | _ => ""

/-- A run ends without an error. -/
def HasSucceeded : TestRun → Prop
  | .finished _ _ code => code = 0
  | _ => False

/-- A run fails and tells a coverage nevertheless. -/
def FailsWithCoverage : TestRun → Prop
  | .finished output errors code => code ≠ 0 ∧ (parseOutput (output ++ errors)).2 = true
  | _ => False

theorem isReadable_timedOut : timedOut.IsReadable := trivial

end TestRun

/-- The row of a package whose tests print a text. -/
def printedRow (package printed : String) : PackageCoverage :=
  ⟨package, (parseOutput printed).1, (parseOutput printed).2⟩

/-- The row of a package without tests. -/
def untestedRow (package : String) : PackageCoverage := ⟨package, Binary64.zero false, false⟩

variable {disk : Disk} {root : Location} {modulePath : String} {scanPaths packages : List String} {run : TestRunner}
  {rows : List PackageCoverage}

/-! ## The row of a package -/

theorem parseOutput_empty : parseOutput "" = (Binary64.zero false, false) := by decide +kernel

/-- Without tests there is no coverage. -/
theorem parseOutput_untested {printed : String} (h : (parseOutput printed).2 = false) :
    parseOutput printed = (Binary64.zero false, false) := by
  unfold parseOutput at h ⊢
  split
  · rfl
  · rename_i hcontains
    rw [if_neg hcontains] at h
    cases hpercent : findPercent? printed.toList with
    | none => rfl
    | some percent =>
      rw [hpercent] at h
      cases h

/-- **A row is read from what the run prints**, if that is text. -/
theorem exists_rowOf_iff {package : String} {run : TestRun} {row : PackageCoverage} :
    (∃ warnings, rowOf package run = .ok (row, warnings)) ↔ run.IsReadable ∧ row = printedRow package run.printed := by
  cases run with
  | finished output errors code =>
    simp only [rowOf, TestRun.IsReadable, TestRun.printed, printedRow, true_and, Except.ok.injEq, Prod.mk.injEq,
      exists_and_left, exists_eq', and_true]
    exact eq_comm
  | timedOut | impossible =>
    simp only [rowOf, TestRun.IsReadable, TestRun.printed, printedRow, parseOutput_empty, true_and, Except.ok.injEq,
      Prod.mk.injEq, exists_and_left, exists_eq', and_true]
    exact eq_comm
  | notCallable | garbled => simp [rowOf, TestRun.IsReadable]

/-- A run that fails leaves a package without tests unless it tells a coverage. -/
theorem printedRow_eq_untested_iff {package : String} {run : TestRun} (hrun : ¬ run.HasSucceeded) :
    printedRow package run.printed = untestedRow package ↔ ¬ run.FailsWithCoverage := by
  cases run with
  | finished output errors code =>
    rw [TestRun.FailsWithCoverage, not_and, Bool.not_eq_true]
    constructor
    · intro hrow _
      exact congrArg PackageCoverage.hasTests hrow
    · intro hnone
      rw [TestRun.printed, printedRow, parseOutput_untested (hnone hrun)]
      rfl
  | timedOut | impossible | notCallable | garbled =>
    simp [TestRun.printed, printedRow, parseOutput_empty, untestedRow, TestRun.FailsWithCoverage]

/-! ## The rows of all packages -/

theorem result_measurePackage_iff {package : String} {run : TestRun} {row : PackageCoverage} :
    (measurePackage package run).result = .ok row ↔ run.IsReadable ∧ row = printedRow package run.printed := by
  rw [← exists_rowOf_iff, measurePackage, Logged.result_bind, Logged.result_ofExcept, Result.bind_eq_ok]
  simp only [Logged.result_bind, Logged.result_notes, Logged.result_pure, Result.ok_bind, Except.ok.injEq,
    Prod.exists, exists_and_right]
  constructor
  · rintro ⟨row', ⟨warnings, h⟩, rfl⟩
    exact ⟨warnings, h⟩
  · rintro ⟨warnings, h⟩
    exact ⟨row, ⟨warnings, h⟩, rfl⟩

/-- **There are rows where all runs can be read**: one for each package, from what its tests print. -/
theorem measure_eq_ok_iff : (measure disk root modulePath scanPaths (some run)).result = .ok rows ↔
    ∃ packages, findPackages disk root modulePath scanPaths = .ok packages ∧
      (∀ package ∈ packages, (run package).IsReadable) ∧
        rows = packages.map fun package => printedRow package (run package).printed := by
  have hrows : ∀ packages : List String, (packages.mapM fun package => measurePackage package (run package)).result =
      .ok rows ↔ (∀ package ∈ packages, (run package).IsReadable) ∧
        rows = packages.map fun package => printedRow package (run package).printed := by
    intro packages
    rw [Logged.result_mapM, Result.mapM_eq_ok_iff]
    simp only [result_measurePackage_iff]
    induction packages generalizing rows with
    | nil => simp
    | cons package rest ih =>
      simp only [List.forall₂_cons_left_iff, ih, List.forall_mem_cons, List.map_cons]
      constructor
      · rintro ⟨row, rest', ⟨hreadable, rfl⟩, ⟨hrest, rfl⟩, rfl⟩
        exact ⟨⟨hreadable, hrest⟩, rfl⟩
      · rintro ⟨⟨hreadable, hrest⟩, rfl⟩
        exact ⟨_, _, ⟨hreadable, rfl⟩, ⟨hrest, rfl⟩, rfl⟩
  unfold measure
  dsimp only
  rw [Logged.result_bind, Logged.result_ofExcept, Result.bind_eq_ok]
  simp only [Logged.result_bind, Logged.result_note, Result.ok_bind, Result.mapError_eq_ok, hrows]

/-- There is one row for each package, in their order. -/
theorem map_packagePath_of_measure (hpackages : findPackages disk root modulePath scanPaths = .ok packages)
    (hrows : (measure disk root modulePath scanPaths (some run)).result = .ok rows) :
    rows.map (·.packagePath) = packages := by
  obtain ⟨packages', hpackages', -, rfl⟩ := measure_eq_ok_iff.mp hrows
  obtain rfl := Except.ok.inj (hpackages.symm.trans hpackages')
  rw [List.map_map]
  exact (List.map_congr_left fun _ _ => rfl).trans (List.map_id _)

/-- **Each package has a row of its own**, in the order of the packages, unless the run of a package cannot be read;
then there are no rows. A row is read from what the run of the tests of its package prints, and where that run fails it
is the row of a package without tests unless the run tells a coverage. How the tests of other packages end does not
matter. -/
theorem measure_rows (disk : Disk) (root : Location) (modulePath : String) (scanPaths : List String) (run : TestRunner)
    (hpackages : findPackages disk root modulePath scanPaths = .ok packages) :
    ((∃ rows, (measure disk root modulePath scanPaths (some run)).result = .ok rows) ↔
      ∀ package ∈ packages, (run package).IsReadable) ∧
    ∀ rows, (measure disk root modulePath scanPaths (some run)).result = .ok rows →
      rows.map (·.packagePath) = packages ∧
      (∀ row ∈ rows, (run row.packagePath).HasSucceeded →
        row = printedRow row.packagePath (run row.packagePath).printed) ∧
      (∀ row ∈ rows, ¬ (run row.packagePath).HasSucceeded →
        (row = untestedRow row.packagePath ↔ ¬ (run row.packagePath).FailsWithCoverage)) ∧
      ∀ (other : TestRunner) (otherRows : List PackageCoverage),
        (measure disk root modulePath scanPaths (some other)).result = .ok otherRows →
          ∀ (i : Nat) (package : String), packages[i]? = some package → other package = run package →
            otherRows[i]? = rows[i]? := by
  have hiff : ∀ {run rows}, (measure disk root modulePath scanPaths (some run)).result = .ok rows ↔
      (∀ package ∈ packages, (run package).IsReadable) ∧
        rows = packages.map fun package => printedRow package (run package).printed := by
    intro run rows
    rw [measure_eq_ok_iff]
    constructor
    · rintro ⟨packages', hpackages', h⟩
      obtain rfl := Except.ok.inj (hpackages.symm.trans hpackages')
      exact h
    · exact fun h => ⟨packages, hpackages, h⟩
  refine ⟨?_, fun rows hmeasured => ⟨map_packagePath_of_measure hpackages hmeasured, ?_, ?_, ?_⟩⟩
  · simp only [hiff, exists_and_left, exists_eq, and_true]
  all_goals obtain ⟨-, rfl⟩ := hiff.mp hmeasured
  · intro row hrow _
    obtain ⟨package, -, rfl⟩ := List.mem_map.mp hrow
    rfl
  · intro row hrow hfailed
    obtain ⟨package, -, rfl⟩ := List.mem_map.mp hrow
    exact printedRow_eq_untested_iff hfailed
  · intro other otherRows hother i package hpackage hsame
    obtain ⟨-, rfl⟩ := hiff.mp hother
    rw [List.getElem?_map, List.getElem?_map, hpackage, Option.map_some, Option.map_some, hsame]

theorem measure_rows_generated : ∃ packages rows,
    findPackages generatedDisk ⟨false, []⟩ "m" ["pkg"] = .ok packages ∧
      (measure generatedDisk ⟨false, []⟩ "m" ["pkg"] (some fun _ => .timedOut)).result = .ok rows ∧
        rows.map (·.packagePath) = packages ∧ untestedRow "m/pkg" ∈ rows := by
  obtain ⟨packages, hpackages, hpkg, -⟩ := exists_findPackages_generated
  obtain ⟨hreadable, hall⟩ := measure_rows generatedDisk ⟨false, []⟩ "m" ["pkg"] (fun _ => .timedOut) hpackages
  obtain ⟨rows, hrows⟩ := hreadable.mpr fun _ _ => trivial
  obtain ⟨hpaths, -, hfailed, -⟩ := hall rows hrows
  refine ⟨packages, rows, hpackages, hrows, hpaths, ?_⟩
  rw [← hpaths] at hpkg
  obtain ⟨row, hrow, hpath⟩ := List.mem_map.mp hpkg
  have huntested := (hfailed row hrow id).mpr id
  rwa [huntested, hpath] at hrow

/-- **A failed run may give a coverage**: the one that its output tells. -/
theorem measure_failed_with_coverage : ¬ ∀ (disk : Disk) (root : Location) (modulePath : String)
    (scanPaths : List String) (run : TestRunner) (rows : List PackageCoverage),
      (measure disk root modulePath scanPaths (some run)).result = .ok rows →
        ∀ row ∈ rows, ¬ (run row.packagePath).HasSucceeded → row = untestedRow row.packagePath := by
  intro h
  obtain ⟨packages, hpackages, hpkg, -⟩ := exists_findPackages_generated
  have hcoverage : (parseOutput ("coverage: 90.0% of statements" ++ "")).2 = true := by decide +kernel
  have hfailed : ¬ (TestRun.finished "coverage: 90.0% of statements" "" 1).HasSucceeded := by
    simp [TestRun.HasSucceeded]
  obtain ⟨rows, hrows⟩ : ∃ rows, (measure generatedDisk ⟨false, []⟩ "m" ["pkg"]
      (some fun _ => .finished "coverage: 90.0% of statements" "" 1)).result = .ok rows :=
    ⟨_, measure_eq_ok_iff.mpr ⟨packages, hpackages, fun _ _ => trivial, rfl⟩⟩
  rw [← map_packagePath_of_measure hpackages hrows] at hpkg
  obtain ⟨row, hrow, -⟩ := List.mem_map.mp hpkg
  have huntested := h _ _ _ _ _ rows hrows row hrow hfailed
  obtain ⟨_, -, -, rfl⟩ := measure_eq_ok_iff.mp hrows
  obtain ⟨package, -, rfl⟩ := List.mem_map.mp hrow
  exact (printedRow_eq_untested_iff hfailed).mp huntested ⟨hfailed, hcoverage⟩

end LayerLint.Coverage
