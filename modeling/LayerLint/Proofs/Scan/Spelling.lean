import LayerLint.Proofs.Coverage.Rows
import LayerLint.Proofs.Path.Slash
import LayerLint.Scan

/-!
# How scanned and ignored paths are written

A scan sees a scanned path without the slashes at its ends and an ignored path without those at its end, so that
requests which agree on these (`SpeltAlike`) have the same scan, log and error included (`scan_eq`). Packages are looked
up where the scanned paths lead to (`measure_eq`).
-/

namespace LayerLint

namespace Scan

/-- Two requests differ at most in the slashes at the ends of their paths. -/
structure SpeltAlike (request request' : Request) : Prop where
  scanPaths : request.scanPaths.map Path.trimSlashes = request'.scanPaths.map Path.trimSlashes
  ignorePaths : request.ignorePaths.map Path.withoutSlash = request'.ignorePaths.map Path.withoutSlash
  includesTests : request.includesTests = request'.includesTests
  withUsages : request.withUsages = request'.withUsages

variable {disk : Disk} {root : Location} {request request' : Request} {scanPath scanPath' : String}

theorem SpeltAlike.isIgnored (h : SpeltAlike request request') (path : String) :
    Path.isIgnored path request.ignorePaths = Path.isIgnored path request'.ignorePaths := by
  rw [Path.isIgnored_eq, Path.isIgnored_eq, h.ignorePaths]

theorem SpeltAlike.enters (h : SpeltAlike request request') :
    enters request.ignorePaths = enters request'.ignorePaths := by
  funext parts
  rw [Scan.enters, Scan.enters, h.isIgnored]

theorem SpeltAlike.selects (h : SpeltAlike request request') : selects request = selects request' := by
  funext relPath
  rw [Scan.selects, Scan.selects, h.isIgnored, h.includesTests]

theorem SpeltAlike.filesBelow (h : SpeltAlike request request') :
    filesBelow disk root request = filesBelow disk root request' := by
  funext directory parts
  rw [Scan.filesBelow, Scan.filesBelow, h.enters, h.selects]

theorem SpeltAlike.filesAt (h : SpeltAlike request request')
    (hpath : Path.trimSlashes scanPath = Path.trimSlashes scanPath') :
    filesAt disk root request scanPath = filesAt disk root request' scanPath' := by
  unfold Scan.filesAt
  rw [hpath, h.filesBelow]

theorem SpeltAlike.readAt (h : SpeltAlike request request') (seen : List Source.Parsed)
    (hpath : Path.trimSlashes scanPath = Path.trimSlashes scanPath') :
    readAt disk root request seen scanPath = readAt disk root request' seen scanPath' := by
  rw [Scan.readAt, Scan.readAt, h.filesAt hpath, h.withUsages]

theorem SpeltAlike.readAll (h : SpeltAlike request request') : ∀ {scanPaths scanPaths' : List String}
    (seen : List Source.Parsed), scanPaths.map Path.trimSlashes = scanPaths'.map Path.trimSlashes →
      readAll disk root request seen scanPaths = readAll disk root request' seen scanPaths'
  | [], [], _, _ => rfl
  | [], _ :: _, _, hpaths => by cases hpaths
  | _ :: _, [], _, hpaths => by cases hpaths
  | first :: rest, first' :: rest', seen, hpaths => by
    rw [List.map_cons, List.map_cons, List.cons.injEq] at hpaths
    have hrest : ∀ seen, Scan.readAll disk root request seen rest = Scan.readAll disk root request' seen rest' :=
      fun seen => h.readAll seen hpaths.2
    rw [Scan.readAll, Scan.readAll, h.readAt seen hpaths.1]
    simp only [hrest]

/-- **Requests that are spelt alike have the same scan.** -/
theorem scan_eq (h : SpeltAlike request request') : scan disk root request = scan disk root request' := by
  rw [scan, scan, h.readAll [] h.scanPaths]

end Scan

namespace Coverage

variable {disk : Disk} {root : Location} {modulePath : String} {scanPaths scanPaths' : List String}

/-- The import paths of the packages below the directory at a location. -/
def packagesFrom (disk : Disk) (root : Location) (modulePath : String) (start : Location) :
    Except Disk.LocatedError (List String) :=
  match disk.isDirectory start with
  | .error cause => .error ⟨cause, start⟩
  | .ok false => .ok []
  | .ok true =>
    .ok ((packageDirs disk start ((disk.directory? start).getD [])).map
      (packageOf disk root modulePath <| start.below ·))

theorem packagesAt_eq (disk : Disk) (root : Location) (modulePath : String) :
    packagesAt disk root modulePath = packagesFrom disk root modulePath ∘ root.join :=
  rfl

/-- Packages are found where the scanned paths lead to. -/
theorem findPackages_eq (h : scanPaths.map root.join = scanPaths'.map root.join) :
    findPackages disk root modulePath scanPaths = findPackages disk root modulePath scanPaths' := by
  have hmap : ∀ paths : List String, paths.mapM (packagesAt disk root modulePath) =
      (paths.map root.join).mapM (packagesFrom disk root modulePath) := by
    intro paths
    rw [List.mapM_map, packagesAt_eq]
  rw [findPackages, findPackages, hmap, hmap, h]

theorem measure_eq (runner : Option TestRunner) (h : scanPaths.map root.join = scanPaths'.map root.join) :
    measure disk root modulePath scanPaths runner = measure disk root modulePath scanPaths' runner := by
  unfold measure
  rw [findPackages_eq h]

end Coverage

end LayerLint
