import LayerLint.Import

/-!
# The dependency graph

One node per scanned file, in the order of the files, with its imports classified against the module path.
The symbols used from an import come from a usage table and change nothing else (`build`).
-/

namespace LayerLint

/-- A source file as the scan reports it. -/
structure SourceFile where
  /-- The path below the project root. -/
  relPath : String
  /-- The package that the file declares. -/
  package : String
  /-- The file name without extension and test suffix. -/
  baseName : String
  isTest : Bool
  imports : List String
deriving DecidableEq, Repr

/-- Which symbols of which import each file uses. -/
abbrev Usages := List (String × List (String × List String))

/-- A file with its classified imports. -/
structure FileNode where
  relPath : String
  package : String
  baseName : String
  isTest : Bool
  dependencies : List Dependency
deriving DecidableEq, Repr

/-- The files of a module and what they import. -/
structure Graph where
  nodes : List FileNode
  modulePath : String
deriving DecidableEq, Repr

namespace Usages

/-- The symbols that a file uses from an import, none where the table is silent. -/
def symbols (usages : Usages) (file importPath : String) : List String :=
  ((usages.lookup file).bind (·.lookup importPath)).getD []

end Usages

namespace FileNode

/-- The directory that holds the file. -/
def directory (node : FileNode) : String := Path.directoryOf node.relPath

/-- The paths of the imported packages of the module itself, in order. -/
def localPaths (node : FileNode) : List String := node.dependencies.filterMap (·.localPath)

/-- The node of a scanned file. -/
def ofFile (modulePath : String) (usages : Usages) (file : SourceFile) : FileNode :=
  { relPath := file.relPath
    package := file.package
    baseName := file.baseName
    isTest := file.isTest
    dependencies := file.imports.map fun path =>
      Import.classify path modulePath (usages.symbols file.relPath path) }

end FileNode

namespace Graph

/-- The graph of the files, with the symbols that the table gives. -/
def build (files : List SourceFile) (modulePath : String) (usages : Usages) : Graph :=
  { nodes := files.map (FileNode.ofFile modulePath usages), modulePath }

/-- The directories that hold a file, each once. -/
def packageDirs (graph : Graph) : List String := Text.distinct (graph.nodes.map (·.directory))

/-- Some file lies directly in the directory. -/
def isLocalPackage (graph : Graph) (path : String) : Bool := graph.packageDirs.contains path

end Graph

end LayerLint
