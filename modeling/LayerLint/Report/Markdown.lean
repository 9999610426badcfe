import LayerLint.Graph

/-!
# The dependency graph as markdown

A section for every file, sorted by path. It lists the packages of the module first and those of third parties
after them, each sorted by import path and followed by the symbols used from it.
-/

namespace LayerLint.Report

/-- Packages of the module come first, and each kind is sorted by import path. -/
def dependencyOrder (a b : Dependency) : Bool :=
  if a.isLocal = b.isLocal then decide (a.importPath ≤ b.importPath) else a.isLocal

/-- The line that names a dependency; the standard library has none. -/
def dependencyLine? (dep : Dependency) : Option String :=
  match dep.localPath with
  | some path => some ("  - local:" ++ path)
  | none => if dep.isStandard then none else some ("  - external:" ++ dep.importPath)

/-- The lines of a dependency with its symbols. -/
def dependencyLines (dep : Dependency) : List String :=
  match dependencyLine? dep with
  | some line => line :: dep.usedSymbols.map ("    - " ++ ·)
  | none => []

/-- The section of a file. -/
def fileSection (node : FileNode) : List String :=
  ["## " ++ node.relPath] ++
    (if node.dependencies.isEmpty then ["depends on: (none)"]
      else "depends on:" :: (node.dependencies.mergeSort dependencyOrder).flatMap dependencyLines) ++
    [""]

/-- The graph as text. -/
def markdown (graph : Graph) : String :=
  let nodes := graph.nodes.mergeSort fun a b => decide (a.relPath ≤ b.relPath)
  Text.join "\n" (["# Dependency Graph", ""] ++ nodes.flatMap fileSection)

end LayerLint.Report
