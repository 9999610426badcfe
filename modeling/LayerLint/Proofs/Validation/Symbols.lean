import LayerLint.Proofs.Validation.Pass
import Mathlib.Data.List.Forall2

/-!
# The symbols that files use change no verdict

A graph without its symbols (`Graph.withoutSymbols`) keeps for each file its place and package and for each import its
path and where it comes from. Nothing else is read: every reader of a graph gives the same with and without symbols,
from the reached paths (`reachable_withoutSymbols`) and the groups of files (`groupFiles_withoutSymbols`) to each pass
of a run (`Pass.violations_withoutSymbols`). Graphs that are built with and without a table of symbols are the same
without their symbols, so they are judged alike (`symbols_change_no_verdict`).
-/

namespace LayerLint

/-! ## Leaving out symbols -/

/-- The import without the symbols that are used from it. -/
def Dependency.withoutSymbols (dep : Dependency) : Dependency := { dep with usedSymbols := [] }

/-- The file without the symbols that it uses. -/
def FileNode.withoutSymbols (node : FileNode) : FileNode :=
  { node with dependencies := node.dependencies.map (·.withoutSymbols) }

/-- The graph without the symbols that its files use. -/
def Graph.withoutSymbols (graph : Graph) : Graph := { graph with nodes := graph.nodes.map (·.withoutSymbols) }

/-- What a table says of an import: the symbols of its entry, none where the file or the import has no entry. -/
inductive Usages.Gives (usages : Usages) (file importPath : String) : List String → Prop
  | entry {table : List (String × List String)} {symbols : List String} (hfile : usages.lookup file = some table)
      (himport : table.lookup importPath = some symbols) : Gives usages file importPath symbols
  | silent (h : ∀ table, usages.lookup file = some table → table.lookup importPath = none) :
      Gives usages file importPath []

theorem Usages.gives_symbols (usages : Usages) (file importPath : String) :
    usages.Gives file importPath (usages.symbols file importPath) := by
  unfold symbols
  cases hfile : usages.lookup file with
  | none => exact .silent fun table h => by simp [hfile] at h
  | some table =>
    cases himport : table.lookup importPath with
    | none =>
      rw [Option.bind_some, himport, Option.getD_none]
      refine .silent fun table' h => ?_
      obtain rfl := Option.some.inj (hfile.symm.trans h)
      exact himport
    | some symbols =>
      rw [Option.bind_some, himport, Option.getD_some]
      exact .entry hfile himport

@[simp] theorem FileNode.directory_withoutSymbols (node : FileNode) : node.withoutSymbols.directory = node.directory :=
  rfl

@[simp] theorem FileNode.localPaths_withoutSymbols (node : FileNode) :
    node.withoutSymbols.localPaths = node.localPaths := by
  unfold localPaths withoutSymbols
  rw [List.filterMap_map]
  rfl

@[simp] theorem FileNode.withoutSymbols_ofFile (modulePath : String) (usages : Usages) (file : SourceFile) :
    (FileNode.ofFile modulePath usages file).withoutSymbols = FileNode.ofFile modulePath [] file := by
  unfold ofFile withoutSymbols
  rw [List.map_map]
  rfl

theorem Graph.withoutSymbols_build (files : List SourceFile) (modulePath : String) (usages : Usages) :
    (Graph.build files modulePath usages).withoutSymbols = Graph.build files modulePath [] := by
  simp [build, withoutSymbols]

/-! ## Reached paths -/

namespace Graph

variable (graph : Graph)

theorem packageDirs_withoutSymbols : graph.withoutSymbols.packageDirs = graph.packageDirs := by
  unfold packageDirs withoutSymbols
  rw [List.map_map]
  simp only [Function.comp_def, FileNode.directory_withoutSymbols]

/-- A selection that does not read symbols finds the same imports. -/
theorem importsWhere_withoutSymbols {selects : FileNode → Bool}
    (h : ∀ node : FileNode, selects node.withoutSymbols = selects node) :
    graph.withoutSymbols.importsWhere selects = graph.importsWhere selects := by
  have hselects : selects ∘ FileNode.withoutSymbols = selects := funext h
  unfold importsWhere withoutSymbols
  rw [List.filter_map, hselects, List.flatMap_map]
  simp only [FileNode.localPaths_withoutSymbols]

theorem expand_withoutSymbols (reached : List String) : graph.withoutSymbols.expand reached = graph.expand reached := by
  unfold expand
  rw [importsWhere_withoutSymbols]
  intro node
  rfl

theorem saturate_withoutSymbols (rounds : Nat) (reached : List String) :
    graph.withoutSymbols.saturate rounds reached = graph.saturate rounds reached := by
  induction rounds generalizing reached with
  | zero => rfl
  | succ rounds ih => simp only [saturate, expand_withoutSymbols, ih]

theorem reachable_withoutSymbols (entryDir : String) :
    graph.withoutSymbols.reachable entryDir = graph.reachable entryDir := by
  have hseeds : graph.withoutSymbols.seeds entryDir = graph.seeds entryDir :=
    importsWhere_withoutSymbols graph fun _ => rfl
  have himports : graph.withoutSymbols.nodes.flatMap (·.localPaths) = graph.nodes.flatMap (·.localPaths) := by
    unfold withoutSymbols
    rw [List.flatMap_map]
    simp only [FileNode.localPaths_withoutSymbols]
  unfold reachable
  rw [saturate_withoutSymbols, hseeds, himports]

end Graph

/-! ## Rules -/

namespace Rule

variable (graph : Graph) (policy : Policy)

/-- What is made of the files one by one, without a look at symbols, is the same without them. -/
theorem flatMap_withoutSymbols {α : Type} {reports : FileNode → List α}
    (h : ∀ node : FileNode, reports node.withoutSymbols = reports node) :
    graph.withoutSymbols.nodes.flatMap reports = graph.nodes.flatMap reports := by
  unfold Graph.withoutSymbols
  rw [List.flatMap_map]
  exact List.flatMap_congr fun node _ => h node

theorem checkStructure_withoutSymbols (disk : Disk) (root : Location) :
    checkStructure disk root graph.withoutSymbols policy = checkStructure disk root graph policy := by
  have hused : isUsedDirectory graph.withoutSymbols = isUsedDirectory graph := by
    funext directory
    unfold isUsedDirectory Graph.withoutSymbols
    rw [List.any_map]
    simp only [Function.comp_def, FileNode.directory_withoutSymbols]
  simp only [checkStructure, detectUnusedDirectories, hused]

theorem checkImports_withoutSymbols : checkImports graph.withoutSymbols policy = checkImports graph policy := by
  apply flatMap_withoutSymbols
  intro node
  unfold checkFile
  rw [FileNode.localPaths_withoutSymbols]
  rfl

theorem detectUnusedPackages_withoutSymbols :
    detectUnusedPackages graph.withoutSymbols = detectUnusedPackages graph := by
  simp only [detectUnusedPackages, libraryDirs, Graph.packageDirs_withoutSymbols, Graph.reachable_withoutSymbols]

theorem thirdPartyImports_withoutSymbols (layers : List String) :
    thirdPartyImports graph.withoutSymbols layers = thirdPartyImports graph layers := by
  apply flatMap_withoutSymbols
  intro node
  rw [FileNode.directory_withoutSymbols]
  split
  · rfl
  · unfold FileNode.withoutSymbols
    rw [List.filter_map, List.map_map]
    rfl

theorem detectSharedImports_withoutSymbols :
    detectSharedImports graph.withoutSymbols policy = detectSharedImports graph policy := by
  simp only [detectSharedImports, thirdPartyImports_withoutSymbols]

theorem testFiles_withoutSymbols :
    testFiles graph.withoutSymbols = (testFiles graph).map (·.withoutSymbols) := by
  unfold testFiles Graph.withoutSymbols
  rw [List.filter_map]
  rfl

theorem checkTestLocations_withoutSymbols :
    checkTestLocations graph.withoutSymbols policy = checkTestLocations graph policy := by
  unfold checkTestLocations
  rw [testFiles_withoutSymbols, List.flatMap_map]
  rfl

theorem checkBlackboxTests_withoutSymbols :
    checkBlackboxTests graph.withoutSymbols = checkBlackboxTests graph := by
  unfold checkBlackboxTests
  rw [testFiles_withoutSymbols, List.filter_map, List.map_map]
  rfl

theorem addToGroup_withoutSymbols (node : FileNode) (groups : List FileGroup) :
    addToGroup node.withoutSymbols groups = addToGroup node groups := by
  induction groups with
  | nil => rfl
  | cons group rest ih =>
    unfold addToGroup
    rw [ih]
    rfl

theorem groupFiles_withoutSymbols : groupFiles graph.withoutSymbols = groupFiles graph := by
  unfold groupFiles Graph.withoutSymbols
  rw [List.filter_map, List.foldl_map]
  simp only [addToGroup_withoutSymbols]
  rfl

theorem checkTestNaming_withoutSymbols :
    checkTestNaming graph.withoutSymbols policy = checkTestNaming graph policy := by
  unfold checkTestNaming
  rw [groupFiles_withoutSymbols]

end Rule

/-- **No pass reads symbols.** -/
theorem Pass.violations_withoutSymbols (pass : Pass) (graph : Graph) (run : Run) :
    pass.violations graph.withoutSymbols run = pass.violations graph run := by
  cases pass with
  | directories => simp only [violations, Rule.checkStructure_withoutSymbols]
  | imports => simp only [violations, Rule.checkImports_withoutSymbols]
  | unusedPackages => simp only [violations, Rule.detectUnusedPackages_withoutSymbols]
  | sharedImports => simp only [violations, Rule.detectSharedImports_withoutSymbols]
  | testLocations => simp only [violations, Rule.checkTestLocations_withoutSymbols]
  | blackboxTests => simp only [violations, Rule.checkBlackboxTests_withoutSymbols]
  | coverage => rfl
  | testNaming => simp only [violations, Rule.checkTestNaming_withoutSymbols]

theorem Run.violations_withoutSymbols (run : Run) (graph : Graph) :
    run.violations graph.withoutSymbols = run.violations graph := by
  rw [violations_eq_flatMap, violations_eq_flatMap]
  exact List.flatMap_congr fun pass _ => pass.violations_withoutSymbols graph run

/-- **Symbols change no verdict.** With any table of symbols, the graph of some files has the violations, the reached
paths, the groups and the directories that it has without one. It differs in nothing but the symbols, and these are for
each import what the table says of it. -/
theorem symbols_change_no_verdict (files : List SourceFile) (modulePath : String) (usages : Usages) :
    let detailed := Graph.build files modulePath usages
    let plain := Graph.build files modulePath []
    (∀ policy coverage project, validate detailed policy coverage project = validate plain policy coverage project) ∧
      (∀ entryDir, detailed.reachable entryDir = plain.reachable entryDir) ∧
      Rule.groupFiles detailed = Rule.groupFiles plain ∧ detailed.packageDirs = plain.packageDirs ∧
      detailed.withoutSymbols = plain ∧
      List.Forall₂ (fun file node => List.Forall₂ (fun path dep =>
        dep.importPath = path ∧ usages.Gives file.relPath path dep.usedSymbols) file.imports node.dependencies)
        files detailed.nodes := by
  intro detailed plain
  have hplain : detailed.withoutSymbols = plain := Graph.withoutSymbols_build files modulePath usages
  rw [← hplain]
  refine ⟨fun policy coverage project => ?_, fun entryDir => ?_, ?_, ?_, rfl, ?_⟩
  · exact (Run.violations_withoutSymbols ⟨policy, coverage, project⟩ detailed).symm
  · exact (Graph.reachable_withoutSymbols detailed entryDir).symm
  · exact (Rule.groupFiles_withoutSymbols detailed).symm
  · exact (Graph.packageDirs_withoutSymbols detailed).symm
  · apply List.forall₂_map_right_iff.mpr
    apply List.forall₂_same.mpr
    intro file _
    apply List.forall₂_map_right_iff.mpr
    apply List.forall₂_same.mpr
    intro path _
    exact ⟨rfl, usages.gives_symbols file.relPath path⟩

end LayerLint
