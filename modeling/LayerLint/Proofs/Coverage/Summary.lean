import LayerLint.Coverage.Summary
import LayerLint.Proofs.Coverage.Rows
import Mathlib.Data.Set.Card

/-!
# The packages in a summary

The local path of a package is the way from the root to its directory (`pathOfPackage_importPath`), and the summary of a
scanned path counts the packages whose local paths lie below the scanned path, as texts. So a package is counted if the
scanned path is written as the way to its directory, and this is neither the root nor above it; the directory's own
package is counted at the root as well. The summary then has as many packages as there are directories with packages
below the scanned one (`summarize_counts`).
-/

namespace LayerLint.Coverage

open Location

variable {disk : Disk} {root : Location} {modulePath scanPath : String} {scanPaths packages way target : List String}
  {run : TestRunner} {rows : List PackageCoverage}

/-! ## Packages and their directories -/

/-- The absolute path of the directory of a scanned path. -/
def scannedDirectory (disk : Disk) (root : Location) (scanPath : String) : List String :=
  (root.join scanPath).absoluteParts disk.current

/-- A package stands in the directory at an absolute path. -/
def IsPackageDirectory (disk : Disk) (root : Location) (scanPaths target : List String) : Prop :=
  ∃ scanPath ∈ scanPaths, ∃ way, HoldsPackage disk root scanPath way ∧
    target = scannedDirectory disk root scanPath ++ way

/-- The import path of the package in the directory at an absolute path. -/
def packageAt (disk : Disk) (root : Location) (modulePath : String) (target : List String) : String :=
  importPath modulePath (wayTo (root.absoluteParts disk.current) target)

theorem HoldsPackage.isName (hdisk : disk.IsNamed) (h : HoldsPackage disk root scanPath way) :
    ∀ name ∈ way, Disk.IsName name := by
  obtain ⟨directory, name, -, -, hholds, -⟩ := h
  obtain ⟨node, hnode⟩ := hholds.exists_node
  intro part hpart
  exact hdisk.isName hnode (List.mem_append_left _ (List.mem_append_right _ hpart))

theorem packageOf_below (hdisk : disk.IsNamed) (h : HoldsPackage disk root scanPath way) :
    packageOf disk root modulePath ((root.join scanPath).below way) =
      packageAt disk root modulePath (scannedDirectory disk root scanPath ++ way) := by
  rw [packageOf, absoluteParts_below_of_names (h.isName hdisk), packageAt, scannedDirectory]

theorem IsPackageDirectory.isNamedFrom (hdisk : disk.IsNamed) (h : IsPackageDirectory disk root scanPaths target) :
    IsNamedFrom (root.absoluteParts disk.current) target := by
  obtain ⟨scanPath, -, way, hholds, rfl⟩ := h
  exact (isNamedFrom_join _ _ _).append (hholds.isName hdisk)

/-- The local path of a package is the path of its directory. -/
theorem pathOfPackage_importPath (hmodule : modulePath ≠ "") (relPath : String) :
    Rule.pathOfPackage (importPath modulePath relPath) modulePath = relPath := by
  have hempty : ¬ modulePath.isEmpty = true := by simpa using hmodule
  by_cases hroot : relPath = Path.rootDir
  · simp [Rule.pathOfPackage, importPath, hroot, hmodule]
  · have himport : importPath modulePath relPath = modulePath ++ "/" ++ relPath := by
      rw [importPath, if_neg (by simpa using hroot), if_neg hempty]
    have hbelow : Path.below? modulePath (modulePath ++ "/" ++ relPath) = some relPath :=
      Path.below?_eq_some_iff.mpr rfl
    have hne : ¬ (modulePath ++ "/" ++ relPath == modulePath) = true := by
      rw [beq_iff_eq]
      intro heq
      have hlength := congrArg String.length heq
      rw [String.length_append, String.length_append] at hlength
      have hslash : "/".length = 1 := by decide
      omega
    rw [himport, Rule.pathOfPackage, if_neg hempty, if_neg hne, hbelow]
    rfl

/-- Packages are known by their directories. -/
theorem packageAt_injOn (hdisk : disk.IsNamed) (hmodule : modulePath ≠ "") :
    Set.InjOn (packageAt disk root modulePath) {target | IsPackageDirectory disk root scanPaths target} := by
  intro target htarget other hother heq
  have hway := congrArg (Rule.pathOfPackage · modulePath) heq
  simp only [packageAt, pathOfPackage_importPath hmodule] at hway
  exact wayTo_injective (htarget.isNamedFrom hdisk) (hother.isNamedFrom hdisk) hway

/-- **The packages that are found** are those of the directories with packages. -/
theorem mem_findPackages_iff_packageAt (hdisk : disk.IsNamed) {package : String}
    (h : findPackages disk root modulePath scanPaths = .ok packages) :
    package ∈ packages ↔ ∃ target, IsPackageDirectory disk root scanPaths target ∧
      package = packageAt disk root modulePath target := by
  rw [mem_findPackages_iff h]
  constructor
  · rintro ⟨scanPath, hscan, way, hholds, rfl⟩
    exact ⟨_, ⟨scanPath, hscan, way, hholds, rfl⟩, packageOf_below hdisk hholds⟩
  · rintro ⟨_, ⟨scanPath, hscan, way, hholds, rfl⟩, rfl⟩
    exact ⟨scanPath, hscan, way, hholds, (packageOf_below hdisk hholds).symm⟩

/-! ## What a summary counts -/

theorem mem_membersOf_iff {row : PackageCoverage} : row ∈ membersOf rows modulePath scanPath ↔
    row ∈ rows ∧ Path.isUnder (Rule.pathOfPackage row.packagePath modulePath) scanPath = true :=
  List.mem_filter

theorem isUnder_packageAt_iff (hmodule : modulePath ≠ "") (hway : ∀ name ∈ way, Disk.IsName name) :
    Path.isUnder (Rule.pathOfPackage (packageAt disk root modulePath (scannedDirectory disk root scanPath ++ way))
        modulePath) scanPath = true ↔
      scanPath = wayTo (root.absoluteParts disk.current) (scannedDirectory disk root scanPath) ∧
        CountsBelow (root.absoluteParts disk.current) (scannedDirectory disk root scanPath) way := by
  rw [packageAt, pathOfPackage_importPath hmodule]
  refine isUnder_wayTo_iff (isNamedFrom_join _ _ _) (fun hrelative => ?_) hway
  rw [scannedDirectory, join_eq_below hrelative, absoluteParts_below]

/-- The directories with packages below that of a scanned path. -/
def packageDirectoriesBelow (disk : Disk) (root : Location) (scanPaths : List String) (scanPath : String) :
    Set (List String) :=
  {target | IsPackageDirectory disk root scanPaths target ∧ scannedDirectory disk root scanPath <+: target}

/-- A summary counts the directories with packages below that of the scanned path. -/
theorem length_membersOf (hdisk : disk.IsNamed) (hmodule : modulePath ≠ "")
    (hpackages : findPackages disk root modulePath scanPaths = .ok packages)
    (hrows : rows.map (·.packagePath) = packages)
    (hpath : scanPath = wayTo (root.absoluteParts disk.current) (scannedDirectory disk root scanPath))
    (hout : ¬ scannedDirectory disk root scanPath <+: root.absoluteParts disk.current) :
    (membersOf rows modulePath scanPath).length = (packageDirectoriesBelow disk root scanPaths scanPath).ncard := by
  have hnodup : packages.Nodup := (pairwise_findPackages hpackages).imp fun h => ne_of_lt h
  have hmembers : (membersOf rows modulePath scanPath).map (·.packagePath) =
      packages.filter fun package => Path.isUnder (Rule.pathOfPackage package modulePath) scanPath := by
    rw [← hrows, List.filter_map]
    rfl
  have hunder : ∀ target, IsPackageDirectory disk root scanPaths target →
      (Path.isUnder (Rule.pathOfPackage (packageAt disk root modulePath target) modulePath) scanPath = true ↔
        scannedDirectory disk root scanPath <+: target) := by
    intro target htarget
    rw [packageAt, pathOfPackage_importPath hmodule]
    conv_lhs => rw [hpath]
    exact isUnder_wayTo_wayTo_iff (isNamedFrom_join _ _ _) (htarget.isNamedFrom hdisk) hout
  have hcounted : {package | package ∈ packages.filter fun package =>
      Path.isUnder (Rule.pathOfPackage package modulePath) scanPath} =
        packageAt disk root modulePath '' packageDirectoriesBelow disk root scanPaths scanPath := by
    ext package
    rw [Set.mem_ofPred_eq, List.mem_filter, mem_findPackages_iff_packageAt hdisk hpackages]
    constructor
    · rintro ⟨⟨target, htarget, rfl⟩, hcounts⟩
      exact ⟨target, ⟨htarget, (hunder target htarget).mp hcounts⟩, rfl⟩
    · rintro ⟨target, ⟨htarget, hbelow⟩, rfl⟩
      exact ⟨⟨target, htarget, rfl⟩, (hunder target htarget).mpr hbelow⟩
  have hinjective : Set.InjOn (packageAt disk root modulePath) (packageDirectoriesBelow disk root scanPaths scanPath) :=
    (packageAt_injOn hdisk hmodule).mono fun target h => h.1
  calc (membersOf rows modulePath scanPath).length
      = ((membersOf rows modulePath scanPath).map (·.packagePath)).length := (List.length_map _).symm
    _ = (packages.filter fun package =>
          Path.isUnder (Rule.pathOfPackage package modulePath) scanPath).toFinset.card := by
        rw [hmembers, List.toFinset_card_of_nodup (hnodup.filter _)]
    _ = (packageAt disk root modulePath '' packageDirectoriesBelow disk root scanPaths scanPath).ncard := by
        rw [← hcounted, ← Set.ncard_coe_finset, List.coe_toFinset]
    _ = (packageDirectoriesBelow disk root scanPaths scanPath).ncard := hinjective.ncard_image

/-- A scanned path with a measured package has a summary. -/
theorem exists_mem_summarize {row : PackageCoverage} (hscan : scanPath ∈ scanPaths)
    (hrow : row ∈ membersOf rows modulePath scanPath) :
    ∃ summary ∈ summarize rows modulePath scanPaths, summary.directory = scanPath ∧
      summary.packages = (membersOf rows modulePath scanPath).length := by
  have hmembers : ¬ (membersOf rows modulePath scanPath).isEmpty = true := by
    rw [List.isEmpty_iff]
    exact List.ne_nil_of_mem hrow
  have hsummary : ∃ summary, summaryOf? rows modulePath scanPath = some summary ∧ summary.directory = scanPath ∧
      summary.packages = (membersOf rows modulePath scanPath).length := by
    unfold summaryOf?
    dsimp only
    rw [if_neg hmembers]
    exact ⟨_, rfl, rfl, rfl⟩
  obtain ⟨summary, hsome, hrest⟩ := hsummary
  exact ⟨summary, List.mem_filterMap.mpr ⟨scanPath, hscan, hsome⟩, hrest⟩

/-- **A summary counts the packages below its directory** where the scanned path is written as the way to it. -/
theorem summarize_counts (disk : Disk) (root : Location) (modulePath : String) (scanPaths : List String)
    (run : TestRunner) (hdisk : disk.IsNamed) (hmodule : modulePath ≠ "")
    (hrows : (measure disk root modulePath scanPaths (some run)).result = .ok rows) :
    (∀ scanPath ∈ scanPaths, ∀ way, HoldsPackage disk root scanPath way →
      ∃ row ∈ rows, row.packagePath = packageOf disk root modulePath ((root.join scanPath).below way) ∧
        (row ∈ membersOf rows modulePath scanPath ↔
          scanPath = wayTo (root.absoluteParts disk.current) (scannedDirectory disk root scanPath) ∧
            CountsBelow (root.absoluteParts disk.current) (scannedDirectory disk root scanPath) way)) ∧
      ∀ scanPath ∈ scanPaths,
        scanPath = wayTo (root.absoluteParts disk.current) (scannedDirectory disk root scanPath) →
        ¬ scannedDirectory disk root scanPath <+: root.absoluteParts disk.current →
        (∃ way, HoldsPackage disk root scanPath way) →
          ∃ summary ∈ summarize rows modulePath scanPaths, summary.directory = scanPath ∧
            summary.packages = (packageDirectoriesBelow disk root scanPaths scanPath).ncard := by
  obtain ⟨packages, hpackages, -⟩ := measure_eq_ok_iff.mp hrows
  have hpaths : rows.map (·.packagePath) = packages := map_packagePath_of_measure hpackages hrows
  have hrow : ∀ scanPath ∈ scanPaths, ∀ way, HoldsPackage disk root scanPath way →
      ∃ row ∈ rows, row.packagePath = packageOf disk root modulePath ((root.join scanPath).below way) ∧
        (row ∈ membersOf rows modulePath scanPath ↔
          scanPath = wayTo (root.absoluteParts disk.current) (scannedDirectory disk root scanPath) ∧
            CountsBelow (root.absoluteParts disk.current) (scannedDirectory disk root scanPath) way) := by
    intro scanPath hscan way hholds
    have hpackage := (mem_findPackages_iff hpackages).mpr ⟨scanPath, hscan, way, hholds, rfl⟩
    rw [← hpaths] at hpackage
    obtain ⟨row, hrow, hpath⟩ := List.mem_map.mp hpackage
    refine ⟨row, hrow, hpath, ?_⟩
    rw [mem_membersOf_iff, and_iff_right hrow, hpath, packageOf_below hdisk hholds]
    exact isUnder_packageAt_iff hmodule (hholds.isName hdisk)
  refine ⟨hrow, fun scanPath hscan hpath hout hholds => ?_⟩
  obtain ⟨way, hholds⟩ := hholds
  have hcounts : CountsBelow (root.absoluteParts disk.current) (scannedDirectory disk root scanPath) way :=
    .inr ⟨fun heq => hout (heq ▸ List.prefix_rfl), fun hback => hout ((List.prefix_append _ _).trans hback)⟩
  obtain ⟨row, -, -, hcounted⟩ := hrow scanPath hscan way hholds
  obtain ⟨summary, hsummary, hdirectory, hnumber⟩ := exists_mem_summarize hscan (hcounted.mpr ⟨hpath, hcounts⟩)
  exact ⟨summary, hsummary, hdirectory, hnumber.trans (length_membersOf hdisk hmodule hpackages hpaths hpath hout)⟩

/-- The packages of the sample are measured, however a run that can be read ends. -/
theorem exists_measure_generated (scanPath : String) {run : TestRunner} (hrun : ∀ package, (run package).IsReadable)
    (hlookup : generatedDisk.isDirectory (Location.join ⟨false, []⟩ scanPath) = .ok true) :
    ∃ rows, (measure generatedDisk ⟨false, []⟩ "m" [scanPath] (some run)).result = .ok rows := by
  obtain ⟨packages, hpackages⟩ := (exists_findPackages_iff generatedDisk ⟨false, []⟩ "m" [scanPath]).mpr
    (List.forall_mem_singleton.mpr ⟨true, hlookup⟩)
  exact ⟨_, measure_eq_ok_iff.mpr ⟨packages, hpackages, fun package _ => hrun package, rfl⟩⟩

theorem summarize_counts_generated : ∃ rows summary,
    (measure generatedDisk ⟨false, []⟩ "m" ["pkg"] (some fun _ => .timedOut)).result = .ok rows ∧
      summary ∈ summarize rows "m" ["pkg"] ∧ summary.directory = "pkg" ∧
        summary.packages = (packageDirectoriesBelow generatedDisk ⟨false, []⟩ ["pkg"] "pkg").ncard := by
  obtain ⟨rows, hrows⟩ := exists_measure_generated "pkg" (fun _ => TestRun.isReadable_timedOut) (by decide +kernel)
  have hholds : HoldsPackage generatedDisk ⟨false, []⟩ "pkg" [] :=
    ⟨["pkg"], "a.go", by decide +kernel, .here, ⟨by decide +kernel, by decide +kernel⟩, by decide +kernel⟩
  obtain ⟨-, hcounts⟩ := summarize_counts generatedDisk ⟨false, []⟩ "m" ["pkg"] (fun _ => .timedOut)
    (by decide +kernel) (by decide) hrows
  obtain ⟨summary, hsummary, hdirectory, hnumber⟩ :=
    hcounts "pkg" (by simp) (by decide +kernel) (by decide +kernel) ⟨[], hholds⟩
  exact ⟨rows, summary, hrows, hsummary, hdirectory, hnumber⟩

/-- **A slash at the end of a scanned path hides its packages** from its summary. -/
theorem summarize_hides : ¬ ∀ (disk : Disk) (root : Location) (modulePath : String) (scanPaths : List String)
    (run : TestRunner) (rows : List PackageCoverage), disk.IsNamed → modulePath ≠ "" →
      (measure disk root modulePath scanPaths (some run)).result = .ok rows →
        ∀ scanPath ∈ scanPaths, ∀ way, HoldsPackage disk root scanPath way →
          ∀ row ∈ rows, row.packagePath = packageOf disk root modulePath ((root.join scanPath).below way) →
            row ∈ membersOf rows modulePath scanPath := by
  intro h
  have hdisk : generatedDisk.IsNamed := by decide +kernel
  obtain ⟨rows, hrows⟩ := exists_measure_generated "pkg/" (fun _ => TestRun.isReadable_timedOut) (by decide +kernel)
  have hholds : HoldsPackage generatedDisk ⟨false, []⟩ "pkg/" [] :=
    ⟨["pkg"], "a.go", by decide +kernel, .here, ⟨by decide +kernel, by decide +kernel⟩, by decide +kernel⟩
  obtain ⟨hcounted, -⟩ := summarize_counts generatedDisk ⟨false, []⟩ "m" ["pkg/"] (fun _ => .timedOut) hdisk (by decide)
    hrows
  obtain ⟨row, hrow, hpath, hmember⟩ := hcounted "pkg/" (by simp) [] hholds
  have hcounts := h _ _ _ _ _ rows hdisk (by decide) hrows "pkg/" (by simp) [] hholds row hrow hpath
  obtain ⟨hspelled, -⟩ := hmember.mp hcounts
  exact absurd hspelled (by decide +kernel)

end LayerLint.Coverage
