import LayerLint.Rule.Unused
import LayerLint.Proofs.Graph.Reachable

/-!
# Unused packages are what no entry point reaches

The library directories of a graph stand in the order of its files, each once (`pairwise_libraryDirs`). Those that
are reported are the ones outside the least set of paths closed under the imports of the entry points
(`unusedPackages_outside_least`).

The files of a directory below a reached path are reached, and what they import is never reported. The directory itself
is not reached with them: it is reported unless a reached file imports it by name (`reported_below_iff`,
`reported_below_reached`).
-/

namespace LayerLint.Rule

/-- The directories of the files, in order. -/
def directories (graph : Graph) : List String := graph.nodes.map (·.directory)

theorem mem_libraryDirs {graph : Graph} {directory : String} : directory ∈ libraryDirs graph ↔
    directory ∈ directories graph ∧ Path.topLevel directory = "pkg" := by
  simp [libraryDirs, libraryDir, Graph.packageDirs, directories]

theorem pairwise_libraryDirs (graph : Graph) : (libraryDirs graph).Pairwise fun a b =>
    (directories graph).idxOf a < (directories graph).idxOf b :=
  (Text.pairwise_distinct _).filter _

/-- **The reached paths are the least closed set, and the library directories outside it are reported**: one violation
for each of them, which names it, in the order in which the files first name them. -/
theorem unusedPackages_outside_least (graph : Graph) :
    (∀ entryDir, (graph.reachable entryDir).Nodup ∧
      IsLeast {paths | graph.ClosedUnderImports entryDir paths} {path | path ∈ graph.reachable entryDir}) ∧
    ∃ unused : List String, detectUnusedPackages graph = unused.map unusedPackage ∧
      (detectUnusedPackages graph).map (fun v => (v.kind, v.file)) = (unused.map fun path => (.unusedPackage, path)) ∧
      (∀ directory, directory ∈ unused ↔ (∃ node ∈ graph.nodes, node.directory = directory) ∧
        Path.topLevel directory = "pkg" ∧ directory ∉ graph.reachable "cmd") ∧
      unused.Pairwise fun a b => (directories graph).idxOf a < (directories graph).idxOf b := by
  refine ⟨fun entryDir => ⟨Graph.nodup_reachable graph entryDir, Graph.isLeast_reachable graph entryDir⟩, ?_⟩
  refine ⟨(libraryDirs graph).filter (!(graph.reachable entryPointDir).contains ·), rfl, ?_, fun directory => ?_,
    (pairwise_libraryDirs graph).filter _⟩
  · rw [detectUnusedPackages, List.map_map]
    rfl
  rw [List.mem_filter, mem_libraryDirs, and_assoc]
  simp [directories, entryPointDir]

/-! ## Directories below reached paths -/

variable {graph : Graph} {directory lead rest : String} {node : FileNode}

/-- The directories that the rule reports. -/
def reportedDirectories (graph : Graph) : List String := (detectUnusedPackages graph).map (·.file)

theorem mem_reportedDirectories : directory ∈ reportedDirectories graph ↔
    directory ∈ directories graph ∧ Path.topLevel directory = "pkg" ∧ directory ∉ graph.reachable "cmd" := by
  have hfiles : reportedDirectories graph =
      (libraryDirs graph).filter (!(graph.reachable entryPointDir).contains ·) := by
    rw [reportedDirectories, detectUnusedPackages, List.map_map]
    exact List.map_id _
  rw [hfiles, List.mem_filter, mem_libraryDirs, and_assoc]
  simp [entryPointDir]

/-- The files of a directory below a reached path are reached. -/
theorem reachesFile_of_below (hlead : lead ∈ graph.reachable "cmd") (hbelow : node.directory = lead ++ "/" ++ rest) :
    graph.ReachesFile "cmd" node := by
  refine .inr ⟨lead, hlead, ?_⟩
  rw [hbelow, String.append_assoc, String.toList_append]
  exact List.prefix_append _ _

/-- **Below a reached path, a library directory is reported unless a reached file imports it by name.** What its own
files import is not reported in either case. -/
theorem reported_below_iff (graph : Graph) {lead rest : String} (hlead : lead ∈ graph.reachable "cmd")
    {node : FileNode} (hnode : node ∈ graph.nodes) (hbelow : node.directory = lead ++ "/" ++ rest) :
    (node.directory ∈ reportedDirectories graph ↔ Path.topLevel node.directory = "pkg" ∧
      ∀ importer ∈ graph.nodes, graph.ReachesFile "cmd" importer → node.directory ∉ importer.localPaths) ∧
    ∀ path ∈ node.localPaths, path ∉ reportedDirectories graph := by
  constructor
  · have hmem : node.directory ∈ directories graph := List.mem_map_of_mem hnode
    rw [mem_reportedDirectories, Graph.mem_reachable_iff, and_iff_right hmem]
    simp only [not_exists, not_and]
  · intro path hpath hreported
    obtain ⟨-, -, hunreached⟩ := mem_reportedDirectories.mp hreported
    apply hunreached
    exact Graph.mem_reachable_of_reachesFile hnode (reachesFile_of_below hlead hbelow) hpath

/-- The files of `pkg/order/model` below the reached `pkg/order` make `pkg/id` used, and are reported for that
themselves. -/
theorem reported_below_iff_model :
    let main := FileNode.ofFile "m" [] ⟨"cmd/api/main.go", "main", "main", false, ["m/pkg/order"]⟩
    let model := FileNode.ofFile "m" [] ⟨"pkg/order/model/model.go", "model", "model", false, ["m/pkg/id"]⟩
    let id := FileNode.ofFile "m" [] ⟨"pkg/id/id.go", "id", "id", false, []⟩
    "pkg/order/model" ∈ reportedDirectories ⟨[main, model, id], "m"⟩ ∧
      "pkg/id" ∉ reportedDirectories ⟨[main, model, id], "m"⟩ := by
  intro main model id
  have hlead : "pkg/order" ∈ Graph.reachable ⟨[main, model, id], "m"⟩ "cmd" := by decide +kernel
  have hnode : model ∈ [main, model, id] := by simp
  have hbelow : model.directory = "pkg/order" ++ "/" ++ "model" := by decide +kernel
  have hunnamed : ∀ importer ∈ [main, model, id], "pkg/order/model" ∉ importer.localPaths := by decide +kernel
  obtain ⟨hreported, hused⟩ := reported_below_iff ⟨[main, model, id], "m"⟩ hlead hnode hbelow
  rw [hbelow] at hreported
  constructor
  · apply hreported.mpr
    refine ⟨by decide +kernel, ?_⟩
    intro importer himporter _
    exact hunnamed importer himporter
  · exact hused "pkg/id" (by decide +kernel)

/-- **Reaching a path does not reach the packages below it**: `pkg/order/model` lies below the reached `pkg/order`, and
it is reported. -/
theorem reported_below_reached : ¬ ∀ (graph : Graph) (lead rest : String) (node : FileNode),
    lead ∈ graph.reachable "cmd" → node ∈ graph.nodes → node.directory = lead ++ "/" ++ rest →
    node.directory ∉ reportedDirectories graph := by
  intro h
  let main := FileNode.ofFile "m" [] ⟨"cmd/api/main.go", "main", "main", false, ["m/pkg/order"]⟩
  let model := FileNode.ofFile "m" [] ⟨"pkg/order/model/model.go", "model", "model", false, ["m/pkg/id"]⟩
  have hmodel := h ⟨[main, model], "m"⟩ "pkg/order" "model" model (by decide +kernel) (by simp) (by decide +kernel)
  revert hmodel
  decide +kernel

end LayerLint.Rule
