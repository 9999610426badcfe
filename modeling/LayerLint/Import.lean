import LayerLint.Path

/-!
# Imports

An import path names a package of the module itself, of the standard library or of a third party. The first
are recognised by the module path in front (`isLocal`), the second by a first segment without a dot.
-/

namespace LayerLint

/-- Where an imported package comes from. -/
inductive Origin where
  | inModule
  | standard
  | thirdParty
deriving DecidableEq, Repr

/-- An import of a file; a package of the module itself has a path inside the module. -/
structure Dependency where
  /-- The path as the file writes it. -/
  importPath : String
  /-- The path inside the module. -/
  localPath : Option String
  /-- The symbols that the file uses from it. -/
  usedSymbols : List String
deriving DecidableEq, Repr

namespace Import

/-- The first segment is a bare word, as in `net/http`; hosts have a dot. -/
def isStandard (path : String) : Bool := !Text.contains (Path.topLevel path) "."

/-- The path is the module or lies below it; nothing belongs to a module without a name. -/
def isLocal (path modulePath : String) : Bool := !modulePath.isEmpty && Path.isUnder path modulePath

/-- The part after the module path and a slash, `.` for the module itself. -/
def pathInModule (path modulePath : String) : String :=
  if path == modulePath then Path.rootDir else Text.drop path (modulePath.length + 1)

/-- The name by which a package is called where the import gives none. -/
def defaultName (path : String) : String := Path.lastSegment path

/-- The dependency that an import path stands for. -/
def classify (path modulePath : String) (usedSymbols : List String) : Dependency :=
  { importPath := path
    localPath := if isLocal path modulePath then some (pathInModule path modulePath) else none
    usedSymbols }

end Import

namespace Dependency

/-- The package belongs to the module itself. -/
def isLocal (dep : Dependency) : Bool := dep.localPath.isSome

/-- The package belongs to the standard library. -/
def isStandard (dep : Dependency) : Bool := !dep.isLocal && Import.isStandard dep.importPath

/-- Where the package comes from. -/
def origin (dep : Dependency) : Origin :=
  if dep.isLocal then .inModule else if Import.isStandard dep.importPath then .standard else .thirdParty

end Dependency

end LayerLint
