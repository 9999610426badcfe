import LayerLint.Rule.Imports
import LayerLint.Proofs.Path.Segments
import LayerLint.Proofs.Source.Name
import Mathlib.Data.List.Basic

/-!
# The rules on local imports, read off segments

The checks of an import compare texts. What they find wrong is said here on the lists of segments of both paths
(`importFaults`): the layout of `cmd` (`entryPointFaults`), that of `pkg` (`libraryFaults`) and the entry of the
directory policy that applies (`policyFaults`). The violations of a graph are the reports of these faults, in the order
of the files and their imports (`checkImports_eq_reports`).
-/

namespace LayerLint.Rule

/-! ## Faults -/

/-- What is wrong with an import. -/
inductive ImportFault where
  | crossEntryPoint
  /-- The segment that was skipped. -/
  | skipLevel (step : String)
  | pkgToPkg
  /-- The entry of the policy that does not allow the import. -/
  | forbidden (key : String) (allowed : List String)
deriving DecidableEq, Repr

/-- An entry point may import what lies strictly below it. -/
def entryPointFaults (directory target : List String) : List ImportFault :=
  if directory.head? = some "cmd" ∧ target.head? = some "cmd" ∧ ¬(directory <+: target ∧ directory ≠ target) then
    [.crossEntryPoint]
  else []

/-- A package may be imported from one segment above, not from itself and not from further above. -/
def subpackageFaults : List String → List ImportFault
  | [] => [.pkgToPkg]
  | [_] => []
  | step :: _ => [.skipLevel step]

/-- A library package may import what lies one segment below it. -/
def libraryFaults (directory target : List String) : List ImportFault :=
  if directory.head? = some "pkg" ∧ target.head? = some "pkg" then
    if directory <+: target then subpackageFaults (target.drop directory.length) else [.pkgToPkg]
  else []

/-- The entry of the policy for a directory: its own, else that of its first segment. -/
def ruleFor? (policy : Policy) (directory : String) : Option (String × List String) :=
  [directory, Path.topLevel directory].findSome? fun key => (policy.directoriesImport.find? key).map (key, ·)

/-- A file may import what is or lies below an allowed path, if the policy has an entry for it. -/
def policyFaults (policy : Policy) (directory : String) (target : List String) : List ImportFault :=
  match ruleFor? policy directory with
  | none => []
  | some (key, allowed) =>
    if ∃ lead ∈ allowed, Path.segments lead <+: target then [] else [.forbidden key allowed]

/-- The path of the file ends in `_test.go`, and its package in `_test`. -/
def IsBlackboxTest (node : FileNode) : Prop :=
  (∃ name, node.relPath = name ++ "_test.go") ∧ ∃ name, node.package = name ++ "_test"

theorem isBlackboxTest_iff {node : FileNode} : isBlackboxTest node = true ↔ IsBlackboxTest node := by
  have hends : ∀ {s tail : String}, Text.endsWith s tail = true ↔ ∃ name, s = name ++ tail := by
    intro s tail
    constructor
    · exact fun h => ⟨_, (Text.dropEnd_append_of_endsWith h).symm⟩
    · rintro ⟨name, rfl⟩
      exact Text.endsWith_append name tail
  rw [isBlackboxTest, Bool.and_eq_true, isTestFile, hends, hends]
  rfl

instance (node : FileNode) : Decidable (IsBlackboxTest node) := decidable_of_iff _ isBlackboxTest_iff

/-- **What is wrong with the import of a local path**; a blackbox test may import the package that it tests. -/
def importFaults (policy : Policy) (node : FileNode) (target : String) : List ImportFault :=
  if IsBlackboxTest node ∧ target = node.directory then []
  else
    let directory := Path.segments node.directory
    let path := Path.segments target
    entryPointFaults directory path ++ libraryFaults directory path ++ policyFaults policy node.directory path

/-! ## Reports -/

namespace ImportFault

def kind : ImportFault → ViolationKind
  | .crossEntryPoint => .crossEntryPoint
  | .skipLevel _ => .skipLevel
  | .pkgToPkg => .pkgToPkg
  | .forbidden _ _ => .forbiddenImport

def rule : ImportFault → String
  | .crossEntryPoint => s!"{entryPointDir} packages must not import other {entryPointDir} packages"
  | .skipLevel _ => "Can only import direct subpackages, not nested ones"
  | .pkgToPkg => s!"{libraryDir} packages must not import other {libraryDir} packages (except own subpackages)"
  | .forbidden key allowed => s!"{key} can only import from: " ++ ("[" ++ Text.join " " allowed ++ "]")

/-- How to mend the import of `target` in `directory`. -/
def fix (directory target : String) : ImportFault → String
  | .crossEntryPoint => s!"Extract shared code to {libraryDir}/ or {isolatedDir}/"
  | .skipLevel step => "Import " ++ (directory ++ "/" ++ step) ++ " instead"
  | .pkgToPkg => s!"Import from {isolatedDir}/ or define interface locally"
  | .forbidden _ _ =>
    if Path.topLevel directory = isolatedDir ∧ Path.topLevel target = isolatedDir then
      "Use interfaces and dependency inversion instead of direct imports"
    else "Restructure dependencies according to allowed imports"

/-- The violation that reports a fault. -/
def report (node : FileNode) (target : String) (fault : ImportFault) : Violation :=
  { kind := fault.kind
    file := node.relPath
    issue := s!"{node.directory} imports {target}"
    rule := fault.rule
    fix := fault.fix node.directory target }

end ImportFault

variable {policy : Policy} {node : FileNode} {target : String}

/-! ## The checks, one by one -/

theorem topLevel_eq_iff {path top : String} : Path.topLevel path = top ↔ (Path.segments path).head? = some top := by
  rw [Path.head?_segments, Option.some_inj]

theorem checkEntryPoint_eq (hd : (Path.segments node.directory).head? = some "cmd")
    (ht : (Path.segments target).head? = some "cmd") : checkEntryPoint node.relPath node.directory target =
    (entryPointFaults (Path.segments node.directory) (Path.segments target)).map (·.report node target) := by
  rw [entryPointFaults, checkEntryPoint]
  by_cases h : Path.segments node.directory <+: Path.segments target ∧ node.directory ≠ target
  · have hs : Path.segments node.directory ≠ Path.segments target := Path.segments_injective.ne h.2
    rw [if_pos (Path.below?_isSome_iff.mpr h)]
    simp [h.1, hs]
  · have hs : ¬(Path.segments node.directory <+: Path.segments target ∧
        Path.segments node.directory ≠ Path.segments target) :=
      fun hf => h ⟨hf.1, fun he => hf.2 (congrArg _ he)⟩
    rw [if_neg (fun hf => h (Path.below?_isSome_iff.mp hf)), if_pos ⟨hd, ht, hs⟩]
    rfl

theorem libraryFaults_of_append {directory path more : List String} (hd : directory.head? = some "pkg")
    (ht : path.head? = some "pkg") (hm : directory ++ more = path) :
    libraryFaults directory path = subpackageFaults more := by
  have hp : directory <+: path := ⟨more, hm⟩
  rw [libraryFaults, if_pos ⟨hd, ht⟩, if_pos hp, ← hm, List.drop_left]

theorem libraryFaults_of_apart {directory path : List String} (hd : directory.head? = some "pkg")
    (ht : path.head? = some "pkg") (hp : ¬directory <+: path) : libraryFaults directory path = [.pkgToPkg] := by
  rw [libraryFaults, if_pos ⟨hd, ht⟩, if_neg hp]

theorem checkLibrary_eq (hd : (Path.segments node.directory).head? = some "pkg")
    (ht : (Path.segments target).head? = some "pkg") : checkLibrary node.relPath node.directory target =
    (libraryFaults (Path.segments node.directory) (Path.segments target)).map (·.report node target) := by
  by_cases hp : Path.segments node.directory <+: Path.segments target
  · obtain ⟨more, hm⟩ := hp
    rw [libraryFaults_of_append hd ht hm, checkLibrary]
    clear hd ht
    rcases more with _ | ⟨step, _ | ⟨next, rest⟩⟩
    · have hchild : ¬Path.isDirectChild node.directory target = true := by simp [Path.isDirectChild_iff, ← hm]
      have hdeep : ¬Path.isDeepDescendant node.directory target = true := by simp [Path.isDeepDescendant_iff, ← hm]
      rw [if_neg hchild, if_neg hdeep]
      rfl
    · rw [if_pos (Path.isDirectChild_iff.mpr ⟨step, hm.symm⟩)]
      rfl
    · have hchild : ¬Path.isDirectChild node.directory target = true := by simp [Path.isDirectChild_iff, ← hm]
      rw [if_neg hchild, if_pos (Path.isDeepDescendant_iff.mpr ⟨step, next, rest, hm.symm⟩),
        Path.stepTowards_of_segments hm.symm]
      rfl
  · have hchild : ¬Path.isDirectChild node.directory target = true := fun h => by
      obtain ⟨segment, hs⟩ := Path.isDirectChild_iff.mp h
      exact hp ⟨_, hs.symm⟩
    have hdeep : ¬Path.isDeepDescendant node.directory target = true := fun h => by
      obtain ⟨step, next, rest, hs⟩ := Path.isDeepDescendant_iff.mp h
      exact hp ⟨_, hs.symm⟩
    rw [libraryFaults_of_apart hd ht hp, checkLibrary, if_neg hchild, if_neg hdeep]
    rfl

theorem allowedImports?_eq (policy : Policy) (directory : String) :
    policy.allowedImports? directory (Path.topLevel directory) = ruleFor? policy directory := by
  simp only [Policy.allowedImports?, ruleFor?, List.findSome?_cons, List.findSome?_nil]
  cases policy.directoriesImport.find? directory with
  | some allowed => rfl
  | none => cases policy.directoriesImport.find? (Path.topLevel directory) <;> rfl

theorem isImportAllowed_iff {allowed : List String} :
    isImportAllowed target allowed = true ↔ ∃ lead ∈ allowed, Path.segments lead <+: Path.segments target := by
  simp [isImportAllowed, Path.isUnder_iff]

theorem checkDirectoryPolicy_eq : checkDirectoryPolicy policy node.relPath node.directory target =
    (policyFaults policy node.directory (Path.segments target)).map (·.report node target) := by
  rw [checkDirectoryPolicy, allowedImports?_eq, policyFaults]
  cases ruleFor? policy node.directory with
  | none => rfl
  | some rule =>
    obtain ⟨key, allowed⟩ := rule
    by_cases h : ∃ lead ∈ allowed, Path.segments lead <+: Path.segments target
    · simp only [isImportAllowed_iff.mpr h, if_pos h]
      rfl
    · simp only [mt isImportAllowed_iff.mp h, if_neg h, Bool.and_eq_true, beq_iff_eq]
      rfl

/-! ## All checks -/

theorem entryPoint_violations : (if Path.topLevel node.directory = entryPointDir ∧ Path.topLevel target = entryPointDir
      then checkEntryPoint node.relPath node.directory target else []) =
    (entryPointFaults (Path.segments node.directory) (Path.segments target)).map (·.report node target) := by
  by_cases h : Path.topLevel node.directory = entryPointDir ∧ Path.topLevel target = entryPointDir
  · rw [if_pos h, checkEntryPoint_eq (topLevel_eq_iff.mp h.1) (topLevel_eq_iff.mp h.2)]
  · rw [if_neg h, entryPointFaults, if_neg fun hf => h ⟨topLevel_eq_iff.mpr hf.1, topLevel_eq_iff.mpr hf.2.1⟩,
      List.map_nil]

theorem library_violations : (if Path.topLevel node.directory = libraryDir ∧ Path.topLevel target = libraryDir
      then checkLibrary node.relPath node.directory target else []) =
    (libraryFaults (Path.segments node.directory) (Path.segments target)).map (·.report node target) := by
  by_cases h : Path.topLevel node.directory = libraryDir ∧ Path.topLevel target = libraryDir
  · rw [if_pos h, checkLibrary_eq (topLevel_eq_iff.mp h.1) (topLevel_eq_iff.mp h.2)]
  · rw [if_neg h, libraryFaults, if_neg fun hf => h ⟨topLevel_eq_iff.mpr hf.1, topLevel_eq_iff.mpr hf.2⟩,
      List.map_nil]

/-- **The violations of an import are the reports of its faults.** -/
theorem checkImport_eq_reports (policy : Policy) (node : FileNode) (target : String) :
    checkImport policy node target = (importFaults policy node target).map (·.report node target) := by
  unfold checkImport importFaults
  simp only [Bool.and_eq_true, beq_iff_eq, isBlackboxTest_iff]
  by_cases h : IsBlackboxTest node ∧ target = node.directory
  · rw [if_pos h, if_pos h, List.map_nil]
  · rw [if_neg h, if_neg h, List.map_append, List.map_append, entryPoint_violations, library_violations,
      checkDirectoryPolicy_eq]

/-- The faults of the imports of a file are reported. -/
theorem report_mem_checkImports {graph : Graph} {fault : ImportFault} (hnode : node ∈ graph.nodes)
    (htarget : target ∈ node.localPaths) (h : fault ∈ importFaults policy node target) :
    fault.report node target ∈ checkImports graph policy := by
  refine List.mem_flatMap.mpr ⟨node, hnode, List.mem_flatMap.mpr ⟨target, htarget, ?_⟩⟩
  rw [checkImport_eq_reports]
  exact List.mem_map_of_mem h

theorem forbidden_mem_importFaults {key : String} {allowed : List String}
    (hother : ¬(IsBlackboxTest node ∧ target = node.directory))
    (hrule : ruleFor? policy node.directory = some (key, allowed))
    (hnone : ¬∃ lead ∈ allowed, Path.segments lead <+: Path.segments target) :
    .forbidden key allowed ∈ importFaults policy node target := by
  rw [importFaults, if_neg hother]
  refine List.mem_append_right _ ?_
  rw [policyFaults, hrule]
  simp only [if_neg hnone, List.mem_singleton]

/-- Only local imports have violations. -/
theorem checkFile_eq_flatMap (policy : Policy) (node : FileNode) : checkFile policy node =
    node.dependencies.flatMap fun dep =>
      match dep.localPath with
      | none => []
      | some target => checkImport policy node target := by
  rw [checkFile, FileNode.localPaths, List.filterMap_eq_flatMap_toList, List.flatMap_assoc]
  congr 1
  funext dep
  cases dep.localPath with
  | none => rfl
  | some target => exact List.flatMap_singleton _ _

/-- **The violations of a graph are the reports of the faults of its local imports**, in the order of the files and
their imports; packages from outside the module have no fault. -/
theorem checkImports_eq_reports (graph : Graph) (policy : Policy) : checkImports graph policy =
    graph.nodes.flatMap fun node => node.dependencies.flatMap fun dep =>
      match dep.localPath with
      | none => []
      | some target => (importFaults policy node target).map (·.report node target) := by
  show graph.nodes.flatMap (fun node => checkFile policy node) = _
  simp only [checkFile_eq_flatMap, checkImport_eq_reports]

end LayerLint.Rule
