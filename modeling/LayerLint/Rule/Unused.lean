import LayerLint.Graph.Reachable
import LayerLint.Rule.Imports

/-!
# Unused packages

A library directory that no entry point reaches is unused.
-/

namespace LayerLint.Rule

/-- The library directories of the graph, each once, in the order of the files. -/
def libraryDirs (graph : Graph) : List String :=
  graph.packageDirs.filter fun directory => Path.topLevel directory == libraryDir

/-- The report of an unused library directory. -/
def unusedPackage (directory : String) : Violation :=
  { kind := .unusedPackage
    file := directory
    issue := s!"Package {directory} not imported by any {entryPointDir}/ package"
    rule := s!"All packages should be transitively imported from {entryPointDir}/"
    fix := s!"Remove package or add import from {entryPointDir}/" }

/-- One violation for every library directory that no entry point reaches. -/
def detectUnusedPackages (graph : Graph) : List Violation :=
  let reached := graph.reachable entryPointDir
  ((libraryDirs graph).filter (!reached.contains ·)).map unusedPackage

end LayerLint.Rule
