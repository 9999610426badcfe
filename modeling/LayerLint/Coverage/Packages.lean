import LayerLint.Disk.Walk
import LayerLint.Source.File

/-!
# The packages of a project

Every directory with source files below the scanned directories is a package. Its import path is the path of the
module and the way from the root of the project to the directory.
-/

namespace LayerLint.Coverage

/-- A walk enters a directory: it is neither hidden nor holds foreign code. -/
def entersPackage (path : List String) : Bool :=
  let name := path.getLastD ""
  name != "vendor" && !Text.startsWith name "."

/-- The directories with source files below the directory at a location, as ways from there. -/
def packageDirs (disk : Disk) (start : Location) (directory : List String) : List (List String) :=
  ((disk.filesBelow start directory entersPackage).filter fun path =>
    Text.endsWith (path.getLastD "") Source.fileSuffix).map (·.dropLast)

/-- The import path of the package at a path below the root. -/
def importPath (modulePath relPath : String) : String :=
  if relPath == Path.rootDir then modulePath
  else if modulePath.isEmpty then relPath
  else modulePath ++ "/" ++ relPath

/-- The import paths of the packages below a scanned directory. -/
def packagesAt (disk : Disk) (root : Location) (modulePath scanPath : String) :
    Except Disk.LocatedError (List String) :=
  let start := root.join scanPath
  match disk.isDirectory start with
  | .error cause => .error ⟨cause, start⟩
  | .ok false => .ok []
  | .ok true =>
    let rootPath := root.absoluteParts disk.current
    return (packageDirs disk start ((disk.directory? start).getD [])).map fun path =>
      importPath modulePath (Location.wayTo rootPath ((start.below path).absoluteParts disk.current))

/-- The import paths of all packages, each once and in order. -/
def findPackages (disk : Disk) (root : Location) (modulePath : String) (scanPaths : List String) :
    Except Disk.LocatedError (List String) := do
  let found ← scanPaths.mapM (packagesAt disk root modulePath)
  return Text.sort (Text.distinct found.flatten)

end LayerLint.Coverage
