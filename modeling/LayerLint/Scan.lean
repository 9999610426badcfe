import LayerLint.Disk.Walk
import LayerLint.Log
import LayerLint.Source.File

/-!
# Scanning a project

The source files below the scanned directories, each once and in the order of their paths. Hidden directories and
ignored paths are not entered, and test files count only where they are asked for.
-/

namespace LayerLint

/-- Why a project cannot be scanned. -/
inductive ScanError where
  | unreadable (relPath : String) (location : Location) (cause : FileError)
  | unparsable (relPath : String) (cause : Source.HeaderError)
  | encoding (cause : Text.DecodeError)
  /-- It cannot be said whether there is a directory. -/
  | inaccessible (location : Location) (cause : FileError)
deriving DecidableEq, Repr

namespace ScanError

/-- The wording of the error. -/
def message : ScanError → String
  | .unreadable relPath location cause => s!"Cannot read {relPath}: " ++ cause.message location
  | .unparsable relPath cause => s!"Cannot parse {relPath}: " ++ cause.message
  | .encoding cause => cause.message
  | .inaccessible location cause => cause.message location

/-- The error is reported to the user and does not stop the program. -/
def isReported : ScanError → Bool
  | .unreadable .. | .unparsable .. => true
  | .encoding _ | .inaccessible .. => false

end ScanError

namespace Scan

/-- What to scan and how. -/
structure Request where
  scanPaths : List String
  ignorePaths : List String
  includesTests : Bool
  withUsages : Bool
deriving DecidableEq, Repr

/-- A source file that a scan finds. -/
structure Found where
  /-- The path below the root of the project. -/
  relPath : String
  location : Location
deriving DecidableEq, Repr

/-- The path of segments below the root. -/
def pathOf (parts : List String) : String := if parts.isEmpty then Path.rootDir else Text.join "/" parts

/-- A walk enters a directory below the root: it is neither hidden nor ignored. -/
def enters (ignored parts : List String) : Bool :=
  !Text.startsWith (parts.getLastD "") "." && !Path.isIgnored (pathOf parts) ignored

/-- The file is to be read. -/
def selects (request : Request) (relPath : String) : Bool :=
  !Path.isIgnored relPath request.ignorePaths &&
    (request.includesTests || !Source.isTestName relPath)

/-- The source files below a directory that lies at a path below the root. -/
def filesBelow (disk : Disk) (root : Location) (request : Request) (directory : List String) (parts : List String) :
    List Found :=
  let names := disk.filesBelow (root.below parts) directory fun path => enters request.ignorePaths (parts ++ path)
  (names.filter fun path => Text.endsWith (path.getLastD "") Source.fileSuffix).filterMap fun path =>
    let relPath := pathOf (parts ++ path)
    if selects request relPath then some ⟨relPath, root.below (parts ++ path)⟩ else none

/-- The source files below a scanned directory; a directory that is missing is passed over. -/
def filesAt (disk : Disk) (root : Location) (request : Request) (scanPath : String) : Logged ScanError (List Found) :=
  let trimmed := Path.trimSlashes scanPath
  let start := root.join trimmed
  match disk.isDirectory start with
  | .error cause => .ofExcept (.error (.inaccessible start cause))
  | .ok false => do
    .note .debug .scan s!"Scan path {trimmed} does not exist, skipping"
    return []
  | .ok true =>
    let directory := (disk.directory? start).getD []
    return filesBelow disk root request directory (Location.parse trimmed).parts

/-- Reads a source file. -/
def readFound (disk : Disk) (withUsages : Bool) (found : Found) : Except ScanError Source.Parsed :=
  match disk.readBytes found.location with
  | .error cause => .error (.unreadable found.relPath found.location cause)
  | .ok bytes =>
    (Source.parse found.relPath bytes withUsages).mapError fun
      | .header cause => .unparsable found.relPath cause
      | .encoding cause => .encoding cause

/-- Adds the files below a scanned directory that were not seen before. -/
def readAt (disk : Disk) (root : Location) (request : Request) (seen : List Source.Parsed) (scanPath : String) :
    Logged ScanError (List Source.Parsed) := do
  let found ← filesAt disk root request scanPath
  let new := found.filter fun f => !seen.any (·.file.relPath == f.relPath)
  let parsed ← .ofExcept (new.mapM (readFound disk request.withUsages))
  return seen ++ parsed

/-- The source files below all scanned directories, in the order in which they are found. -/
def readAll (disk : Disk) (root : Location) (request : Request) (seen : List Source.Parsed) :
    List String → Logged ScanError (List Source.Parsed)
  | [] => return seen
  | scanPath :: rest => do
    let seen ← readAt disk root request seen scanPath
    readAll disk root request seen rest

end Scan

/-- The source files of a project, in the order of their paths. -/
def scan (disk : Disk) (root : Location) (request : Scan.Request) : Logged ScanError (List Source.Parsed) := do
  let parsed ← Scan.readAll disk root request [] request.scanPaths
  .note .debug .scan s!"Scanned {parsed.length} Go files under {root}"
  return parsed.mergeSort fun a b => decide (a.file.relPath ≤ b.file.relPath)

end LayerLint
