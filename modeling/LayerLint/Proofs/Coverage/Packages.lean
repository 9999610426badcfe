import LayerLint.Coverage.Packages
import LayerLint.Proofs.Result
import LayerLint.Proofs.Scan.Selection

/-!
# The packages of a project and its scanned files

A package stands where a walk through a scanned directory finds source files (`HoldsPackage`), and `findPackages` lists
the import paths of these directories in order (`mem_findPackages_iff`, `pairwise_findPackages`). A scan of the same
paths finds a source file in each of them, or it finds none there because all of them are ignored
(`findPackages_scanned`): packages are searched for in ignored directories as well.
-/

namespace LayerLint

namespace Scan

variable {disk : Disk} {root : Location} {request : Request} {scanPath : String} {found : Found}

/-- A scan finds a file at one of its scanned paths. -/
def Finds (disk : Disk) (root : Location) (request : Request) (found : Found) : Prop :=
  ∃ scanPath ∈ request.scanPaths, ∃ founds,
    (filesAt disk root request scanPath).result = .ok founds ∧ found ∈ founds

theorem foundAt_eq_filter (disk : Disk) (root : Location) (request : Request) (scanPath : String) :
    foundAt disk root request scanPath = (foundAt disk root request.ignoringNothing scanPath).filter fun found =>
      !Path.isIgnored found.relPath request.ignorePaths := by
  unfold foundAt
  split
  · exact filesBelow_eq_filter _ _ _ _ _
  · rfl

theorem finds_iff : Finds disk root request found ↔
    ∃ scanPath ∈ request.scanPaths, CanLookUp disk root scanPath ∧ found ∈ foundAt disk root request scanPath := by
  unfold Finds
  simp only [filesAt_eq_ok_iff]
  constructor
  · rintro ⟨scanPath, hscan, founds, ⟨hlookup, rfl⟩, hfound⟩
    exact ⟨scanPath, hscan, hlookup, hfound⟩
  · rintro ⟨scanPath, hscan, hlookup, hfound⟩
    exact ⟨scanPath, hscan, _, ⟨hlookup, rfl⟩, hfound⟩

/-- A scan finds what it would find if nothing was ignored, without what is ignored. -/
theorem finds_iff_not_ignored : Finds disk root request found ↔
    Finds disk root request.ignoringNothing found ∧ ¬ Path.isIgnored found.relPath request.ignorePaths = true := by
  simp only [finds_iff]
  constructor
  · rintro ⟨scanPath, hscan, hlookup, hfound⟩
    rw [foundAt_eq_filter, List.mem_filter] at hfound
    exact ⟨⟨scanPath, hscan, hlookup, hfound.1⟩, by simpa using hfound.2⟩
  · rintro ⟨⟨scanPath, hscan, hlookup, hfound⟩, hnot⟩
    refine ⟨scanPath, hscan, hlookup, ?_⟩
    rw [foundAt_eq_filter, List.mem_filter]
    exact ⟨hfound, by simpa using hnot⟩

end Scan

namespace Coverage

variable {disk : Disk} {root : Location} {modulePath scanPath package : String} {scanPaths packages way : List String}

/-! ## Searching for packages -/

/-- A package stands at the end of a way from a scanned directory. -/
def HoldsPackage (disk : Disk) (root : Location) (scanPath : String) (way : List String) : Prop :=
  ∃ directory name, disk.directory? (root.join scanPath) = some directory ∧
    disk.Reaches directory entersPackage way ∧ disk.HoldsFile (root.join scanPath) directory way name ∧
      Text.endsWith name Source.fileSuffix = true

/-- The import path of the package in the directory at a location. -/
def packageOf (disk : Disk) (root : Location) (modulePath : String) (directory : Location) : String :=
  importPath modulePath
    (Location.wayTo (root.absoluteParts disk.current) (directory.absoluteParts disk.current))

theorem mem_packageDirs_iff {start : Location} {directory : List String} : way ∈ packageDirs disk start directory ↔
    ∃ name, disk.Reaches directory entersPackage way ∧ disk.HoldsFile start directory way name ∧
      Text.endsWith name Source.fileSuffix = true := by
  unfold packageDirs
  simp only [List.mem_map, List.mem_filter, Disk.mem_filesBelow_iff]
  constructor
  · rintro ⟨path, ⟨⟨way, name, hreaches, hholds, rfl⟩, hsource⟩, rfl⟩
    rw [List.dropLast_concat]
    exact ⟨name, hreaches, hholds, by simpa using hsource⟩
  · rintro ⟨name, hreaches, hholds, hsource⟩
    exact ⟨way ++ [name], ⟨⟨way, name, hreaches, hholds, rfl⟩, by simpa using hsource⟩, List.dropLast_concat⟩

theorem mem_packagesAt_iff (h : packagesAt disk root modulePath scanPath = .ok packages) : package ∈ packages ↔
    ∃ way, HoldsPackage disk root scanPath way ∧
      package = packageOf disk root modulePath ((root.join scanPath).below way) := by
  unfold packagesAt at h
  dsimp only at h
  unfold HoldsPackage
  cases hlookup : disk.isDirectory (root.join scanPath) with
  | error cause =>
    rw [hlookup] at h
    cases h
  | ok isDirectory =>
    rw [hlookup] at h
    obtain ⟨-, hdirectory⟩ := Disk.isDirectory_eq_ok_iff.mp hlookup
    cases hstart : disk.directory? (root.join scanPath) with
    | none =>
      rw [hstart] at hdirectory
      subst hdirectory
      cases h
      simp
    | some directory =>
      rw [hstart] at hdirectory h
      subst hdirectory
      obtain rfl := Result.pure_eq_ok.mp h
      simp only [List.mem_map, Option.getD_some, mem_packageDirs_iff]
      constructor
      · rintro ⟨way, ⟨name, hreaches, hholds, hsource⟩, rfl⟩
        exact ⟨way, ⟨directory, name, rfl, hreaches, hholds, hsource⟩, rfl⟩
      · rintro ⟨way, ⟨directory', name, heq, hreaches, hholds, hsource⟩, rfl⟩
        obtain rfl := Option.some.inj heq
        exact ⟨way, ⟨name, hreaches, hholds, hsource⟩, rfl⟩

theorem findPackages_eq_ok_iff : findPackages disk root modulePath scanPaths = .ok packages ↔
    ∃ found, List.Forall₂ (fun scanPath found => packagesAt disk root modulePath scanPath = .ok found) scanPaths found ∧
      packages = Text.sort (Text.distinct found.flatten) := by
  rw [findPackages, Result.bind_eq_ok]
  simp only [Result.mapM_eq_ok_iff, Result.pure_eq_ok, @eq_comm _ packages]

/-- **The packages that are found** are those of the directories with source files. -/
theorem mem_findPackages_iff (h : findPackages disk root modulePath scanPaths = .ok packages) : package ∈ packages ↔
    ∃ scanPath ∈ scanPaths, ∃ way, HoldsPackage disk root scanPath way ∧
      package = packageOf disk root modulePath ((root.join scanPath).below way) := by
  obtain ⟨found, hfound, rfl⟩ := findPackages_eq_ok_iff.mp h
  rw [Text.sort, List.mem_mergeSort, Text.mem_distinct]
  clear h
  induction hfound with
  | nil => simp
  | cons hfirst _ ih =>
    simp only [List.flatten_cons, List.mem_append, List.exists_mem_cons_iff, ih, mem_packagesAt_iff hfirst]

/-- Each package is listed once, and they are in order. -/
theorem pairwise_findPackages (h : findPackages disk root modulePath scanPaths = .ok packages) :
    packages.Pairwise (· < ·) := by
  obtain ⟨found, -, rfl⟩ := findPackages_eq_ok_iff.mp h
  exact Text.pairwise_sort (Text.nodup_distinct _)

/-- Packages are found where it can be said of all scanned paths whether there is a directory. -/
theorem exists_findPackages_iff (disk : Disk) (root : Location) (modulePath : String) (scanPaths : List String) :
    (∃ packages, findPackages disk root modulePath scanPaths = .ok packages) ↔
      ∀ scanPath ∈ scanPaths, ∃ isDirectory, disk.isDirectory (root.join scanPath) = .ok isDirectory := by
  have hpackagesAt : ∀ scanPath, (∃ packages, packagesAt disk root modulePath scanPath = .ok packages) ↔
      ∃ isDirectory, disk.isDirectory (root.join scanPath) = .ok isDirectory := by
    intro scanPath
    unfold packagesAt
    dsimp only
    cases disk.isDirectory (root.join scanPath) with
    | error cause => simp
    | ok isDirectory => cases isDirectory <;> simp [pure, Except.pure]
  simp only [← hpackagesAt]
  rw [findPackages, Result.exists_bind_eq_ok]
  simp only [Result.exists_pure_eq_ok, and_true]
  exact Result.exists_mapM_eq_ok

/-! ## Packages and scanned files -/

/-- A scan that asks for tests and ignores nothing finds source files where a package stands. -/
theorem HoldsPackage.finds {request : Scan.Request} (h : HoldsPackage disk root scanPath way)
    (hslash : ¬ Text.startsWith scanPath "/" = true) (hscan : scanPath ∈ request.scanPaths)
    (htests : request.includesTests = true)
    (hlookup : ∃ isDirectory, disk.isDirectory (root.join scanPath) = .ok isDirectory) :
    ∃ found, Scan.Finds disk root request.ignoringNothing found ∧
      found.location.parent = (root.join scanPath).below way := by
  have hjoin : root.join scanPath = root.below (Scan.partsOf scanPath) := by
    rw [Location.join_eq_below hslash, Scan.partsOf_eq]
  obtain ⟨directory, name, hdirectory, hreaches, hholds, hsource⟩ := h
  rw [hjoin] at hdirectory hholds hlookup
  have hvisible : disk.Reaches directory Scan.isVisible way := by
    refine hreaches.mono fun way name henters => ?_
    rw [entersPackage, Bool.and_eq_true] at henters
    exact henters.2
  refine ⟨.ofPath root (Scan.partsOf scanPath ++ way ++ [name]), Scan.finds_iff.mpr ⟨scanPath, hscan, ?_, ?_⟩, ?_⟩
  · rw [Scan.CanLookUp, Scan.join_trimSlashes]
    exact hlookup
  · refine Scan.mem_foundAt_iff.mpr ⟨directory, way, name, hdirectory, hvisible, hholds, hsource, ?_, rfl⟩
    have hasked : request.ignoringNothing.includesTests = true := htests
    rw [Scan.selects, hasked]
    rfl
  · rw [hjoin]
    simp [Scan.Found.ofPath, Location.parent, Location.below]

/-- **A package stands where a scan finds a source file**, or where all that it would find is ignored. -/
theorem findPackages_scanned (request : Scan.Request)
    (hslash : ∀ scanPath ∈ request.scanPaths, ¬ Text.startsWith scanPath "/" = true)
    (htests : request.includesTests = true)
    (h : findPackages disk root modulePath request.scanPaths = .ok packages) :
    ∀ package ∈ packages, ∃ directory, package = packageOf disk root modulePath directory ∧
      (∃ found, Scan.Finds disk root request.ignoringNothing found ∧ found.location.parent = directory) ∧
        ((∃ found, Scan.Finds disk root request found ∧ found.location.parent = directory) ∨
          ∀ found, Scan.Finds disk root request.ignoringNothing found → found.location.parent = directory →
            Path.isIgnored found.relPath request.ignorePaths = true) := by
  intro package hpackage
  obtain ⟨scanPath, hscan, way, hholds, rfl⟩ := (mem_findPackages_iff h).mp hpackage
  have hlookup := (exists_findPackages_iff _ _ _ _).mp ⟨packages, h⟩ scanPath hscan
  refine ⟨_, rfl, hholds.finds (hslash scanPath hscan) hscan htests hlookup, ?_⟩
  by_cases hignored : ∀ found, Scan.Finds disk root request.ignoringNothing found →
      found.location.parent = (root.join scanPath).below way → Path.isIgnored found.relPath request.ignorePaths = true
  · exact .inr hignored
  · push Not at hignored
    obtain ⟨found, hfinds, hparent, hnot⟩ := hignored
    exact .inl ⟨found, Scan.finds_iff_not_ignored.mpr ⟨hfinds, hnot⟩, hparent⟩

/-- A project with a package and generated code. -/
def generatedDisk : Disk :=
  { nodes :=
      [(["pkg"], .directory), (["pkg", "a.go"], .file "package pkg\n".toUTF8), (["pkg", "gen"], .directory),
        (["pkg", "gen", "g.go"], .file "package gen\n".toUTF8)]
    current := [] }

/-- A request for the package with its tests and without what is generated. -/
def generatedRequest : Scan.Request :=
  { scanPaths := ["pkg"], ignorePaths := ["pkg/gen"], includesTests := true, withUsages := false }

theorem holdsPackage_generated {way : List String} (name : String)
    (hreaches : generatedDisk.Reaches ["pkg"] entersPackage way)
    (hholds : generatedDisk.HoldsFile (Location.join ⟨false, []⟩ "pkg") ["pkg"] way name)
    (hsource : Text.endsWith name Source.fileSuffix = true) : HoldsPackage generatedDisk ⟨false, []⟩ "pkg" way :=
  ⟨["pkg"], name, by decide +kernel, hreaches, hholds, hsource⟩

/-- Both directories hold packages. -/
theorem exists_findPackages_generated : ∃ packages,
    findPackages generatedDisk ⟨false, []⟩ "m" ["pkg"] = .ok packages ∧ "m/pkg" ∈ packages ∧
      "m/pkg/gen" ∈ packages := by
  have hlookup : generatedDisk.isDirectory (Location.join ⟨false, []⟩ "pkg") = .ok true := by decide +kernel
  obtain ⟨packages, hpackages⟩ := (exists_findPackages_iff _ _ "m" _).mpr
    (List.forall_mem_singleton.mpr ⟨true, hlookup⟩)
  have hgen : generatedDisk.Reaches ["pkg"] entersPackage ["gen"] :=
    Disk.Reaches.here.into (by decide +kernel) (by decide +kernel)
  refine ⟨packages, hpackages, (mem_findPackages_iff hpackages).mpr ⟨"pkg", by simp, [], ?_, by decide +kernel⟩,
    (mem_findPackages_iff hpackages).mpr ⟨"pkg", by simp, ["gen"], ?_, by decide +kernel⟩⟩
  · exact holdsPackage_generated "a.go" .here ⟨by decide +kernel, by decide +kernel⟩ (by decide +kernel)
  · exact holdsPackage_generated "g.go" hgen ⟨by decide +kernel, by decide +kernel⟩ (by decide +kernel)

theorem findPackages_scanned_generated : ∃ packages,
    findPackages generatedDisk ⟨false, []⟩ "m" generatedRequest.scanPaths = .ok packages ∧ "m/pkg/gen" ∈ packages ∧
      ∀ package ∈ packages, ∃ directory, package = packageOf generatedDisk ⟨false, []⟩ "m" directory ∧
        ∃ found, Scan.Finds generatedDisk ⟨false, []⟩ generatedRequest.ignoringNothing found ∧
          found.location.parent = directory := by
  obtain ⟨packages, hpackages, -, hgen⟩ := exists_findPackages_generated
  have hscanned := findPackages_scanned generatedRequest (by decide +kernel) rfl hpackages
  refine ⟨packages, hpackages, hgen, fun package hpackage => ?_⟩
  obtain ⟨directory, hdirectory, hfinds, -⟩ := hscanned package hpackage
  exact ⟨directory, hdirectory, hfinds⟩

/-- Each package stands where a scan of the same paths finds a source file. -/
def StandsWhereScanned (disk : Disk) (root : Location) (modulePath : String) (request : Scan.Request) : Prop :=
  ∀ packages, findPackages disk root modulePath request.scanPaths = .ok packages → ∀ package ∈ packages,
    ∃ found, Scan.Finds disk root request found ∧ package = packageOf disk root modulePath found.location.parent

/-- A directory beside the project with a package. -/
def besideDisk : Disk :=
  { nodes := [(["proj"], .directory), (["pkg"], .directory), (["pkg", "a.go"], .file "package pkg\n".toUTF8)]
    current := ["proj"] }

/-- **Packages are found where a scan finds nothing**: in ignored directories, and outside the project where a scanned
path begins with a slash. -/
theorem findPackages_not_scanned :
    ¬ StandsWhereScanned generatedDisk ⟨false, []⟩ "m" generatedRequest ∧
      ¬ StandsWhereScanned besideDisk ⟨false, []⟩ "m"
        { scanPaths := ["/pkg"], ignorePaths := [], includesTests := true, withUsages := false } := by
  constructor
  · intro h
    obtain ⟨packages, hpackages, -, hgen⟩ := exists_findPackages_generated
    obtain ⟨found, hfinds, hpackage⟩ := h packages hpackages _ hgen
    obtain ⟨scanPath, hscan, -, hfound⟩ := Scan.finds_iff.mp hfinds
    obtain rfl := List.mem_singleton.mp hscan
    obtain ⟨directory, way, name, hdirectory, -, hholds, hsource, hselects, rfl⟩ := Scan.mem_foundAt_iff.mp hfound
    have hparts : Scan.partsOf "pkg" = ["pkg"] := Scan.partsOf_of_isName (by decide +kernel)
    have hthere : generatedDisk.directory? (Location.below ⟨false, []⟩ ["pkg"]) = some ["pkg"] := by decide +kernel
    rw [hparts] at hdirectory hholds hselects hpackage
    obtain rfl := Option.some.inj (hdirectory.symm.trans hthere)
    obtain ⟨node, hnode⟩ := hholds.exists_mem
    have hall : ∀ entry ∈ generatedDisk.nodes, Scan.selects generatedRequest (Scan.pathOf entry.1) = true →
        "m/pkg/gen" ≠ packageOf generatedDisk ⟨false, []⟩ "m"
          (Scan.Found.ofPath ⟨false, []⟩ entry.1).location.parent := by decide +kernel
    exact hall _ hnode hselects hpackage
  · intro h
    have hlookup : besideDisk.isDirectory (Location.join ⟨false, []⟩ "/pkg") = .ok true := by decide +kernel
    obtain ⟨packages, hpackages⟩ := (exists_findPackages_iff _ _ "m" _).mpr
      (List.forall_mem_singleton.mpr ⟨true, hlookup⟩)
    have hbeside : HoldsPackage besideDisk ⟨false, []⟩ "/pkg" [] :=
      ⟨["pkg"], "a.go", by decide +kernel, .here, ⟨by decide +kernel, by decide +kernel⟩, by decide +kernel⟩
    obtain ⟨found, hfinds, -⟩ := h packages hpackages _
      ((mem_findPackages_iff hpackages).mpr ⟨"/pkg", by simp, [], hbeside, rfl⟩)
    obtain ⟨scanPath, hscan, -, hfound⟩ := Scan.finds_iff.mp hfinds
    obtain rfl := List.mem_singleton.mp hscan
    obtain ⟨directory, way, name, hdirectory, -⟩ := Scan.mem_foundAt_iff.mp hfound
    have hparts : Scan.partsOf "/pkg" = ["pkg"] := by
      rw [Scan.partsOf_eq]
      decide +kernel
    have hnowhere : besideDisk.directory? (Location.below ⟨false, []⟩ ["pkg"]) = none := by decide +kernel
    rw [hparts, hnowhere] at hdirectory
    cases hdirectory

end Coverage

end LayerLint
