import LayerLint.Proofs.Graph.Reachable
import Mathlib.Data.Fintype.EquivFin

/-!
# Which files decide what is reached

Files of one directory may come, go and change their imports without any effect on the reached paths when they are no
entry files and no reached path begins their directory (`sameReach_of_changedOnlyIn`). Nothing less will do: a file
whose directory begins with a reached path can add any path by importing it (`reachable_unchanged_iff`). A path begins
a directory as a text, so `pkg/order` begins `pkg/orders` (`reachable_changed_by_sibling`).
-/

namespace LayerLint.Graph

/-- Two graphs reach the same paths. -/
def SameReach (entryDir : String) (graph graph' : Graph) : Prop :=
  ∀ path, path ∈ graph.reachable entryDir ↔ path ∈ graph'.reachable entryDir

/-- Two graphs have the same files outside a directory. -/
structure ChangedOnlyIn (directory : String) (graph graph' : Graph) : Prop where
  kept : ∀ node ∈ graph.nodes, node ∈ graph'.nodes ∨ node.directory = directory
  added : ∀ node ∈ graph'.nodes, node ∈ graph.nodes ∨ node.directory = directory

variable {graph graph' : Graph} {entryDir directory modulePath : String} {before after : List FileNode}
  {node : FileNode}

/-- The reached paths stay closed when files come that neither are entry files nor are reached. -/
theorem closed_reachable_of_added (hadded : ∀ node ∈ graph'.nodes, node ∈ graph.nodes ∨ node.directory = directory)
    (hentry : Path.topLevel directory ≠ entryDir)
    (hapart : ∀ lead ∈ graph.reachable entryDir, ¬ lead.toList <+: directory.toList) :
    graph'.ClosedUnderImports entryDir {p | p ∈ graph.reachable entryDir} where
  entry node hn htop p hp := by
    rcases hadded node hn with hn | rfl
    · exact (closed_reachable graph entryDir).entry node hn htop p hp
    · exact absurd htop hentry
  step lead hl node hn hb p hp := by
    rcases hadded node hn with hn | rfl
    · exact (closed_reachable graph entryDir).step lead hl node hn hb p hp
    · exact absurd hb (hapart lead hl)

/-- What is reached is reached still when files go that neither are entry files nor are reached. -/
theorem closed_inter_of_kept (hkept : ∀ node ∈ graph.nodes, node ∈ graph'.nodes ∨ node.directory = directory)
    (hentry : Path.topLevel directory ≠ entryDir)
    (hapart : ∀ lead ∈ graph.reachable entryDir, ¬ lead.toList <+: directory.toList) :
    graph.ClosedUnderImports entryDir {p | p ∈ graph.reachable entryDir ∧ p ∈ graph'.reachable entryDir} where
  entry node hn htop p hp := by
    refine ⟨(closed_reachable graph entryDir).entry node hn htop p hp, ?_⟩
    rcases hkept node hn with hn | rfl
    · exact (closed_reachable graph' entryDir).entry node hn htop p hp
    · exact absurd htop hentry
  step lead hl node hn hb p hp := by
    refine ⟨(closed_reachable graph entryDir).step lead hl.1 node hn hb p hp, ?_⟩
    rcases hkept node hn with hn | rfl
    · exact (closed_reachable graph' entryDir).step lead hl.2 node hn hb p hp
    · exact absurd hb (hapart lead hl.1)

/-- **Files apart from what is reached do not matter.** -/
theorem sameReach_of_changedOnlyIn (h : ChangedOnlyIn directory graph graph')
    (hentry : Path.topLevel directory ≠ entryDir)
    (hapart : ∀ lead ∈ graph.reachable entryDir, ¬ lead.toList <+: directory.toList) :
    SameReach entryDir graph' graph := fun _ =>
  ⟨fun hp => (closed_reachable_of_added h.added hentry hapart).mem_of_reachable hp,
    fun hp => ((closed_inter_of_kept h.kept hentry hapart).mem_of_reachable hp).2⟩

/-! ## One file -/

/-- Other files of its directory take the place of a file. -/
theorem changedOnlyIn_replace (files : List FileNode) (h : ∀ n ∈ files, n.directory = node.directory) :
    ChangedOnlyIn node.directory ⟨before ++ node :: after, modulePath⟩ ⟨before ++ (files ++ after), modulePath⟩ := by
  constructor <;> intro n hn <;> simp only [List.mem_append, List.mem_cons] at hn ⊢
  · rcases hn with hn | rfl | hn
    · exact Or.inl (Or.inl hn)
    · exact Or.inr rfl
    · exact Or.inl (Or.inr (Or.inr hn))
  · rcases hn with hn | hn | hn
    · exact Or.inl (Or.inl hn)
    · exact Or.inr (h n hn)
    · exact Or.inl (Or.inr (Or.inr hn))

/-- A file whose directory begins with a reached path makes every path reached that it imports. -/
theorem mem_reachable_of_import {lead path : String} {imports : List Dependency}
    (hl : lead ∈ reachable ⟨before ++ { node with dependencies := imports } :: after, modulePath⟩ entryDir)
    (hb : lead.toList <+: node.directory.toList) (hp : path ∈ imports.filterMap (·.localPath)) :
    path ∈ reachable ⟨before ++ { node with dependencies := imports } :: after, modulePath⟩ entryDir :=
  (closed_reachable _ _).step lead hl { node with dependencies := imports } (by simp) hb path hp

/-- **A file matters exactly when a reached path begins its directory.** The file is no entry file; it is taken out, or
its imports are replaced by others. -/
theorem reachable_unchanged_iff (before after : List FileNode) (node : FileNode) (modulePath entryDir : String)
    (hentry : Path.topLevel node.directory ≠ entryDir) :
    (SameReach entryDir ⟨before ++ after, modulePath⟩ ⟨before ++ node :: after, modulePath⟩ ∧
      ∀ imports, SameReach entryDir ⟨before ++ { node with dependencies := imports } :: after, modulePath⟩
        ⟨before ++ node :: after, modulePath⟩) ↔
    ∀ lead ∈ reachable ⟨before ++ node :: after, modulePath⟩ entryDir, ¬ lead.toList <+: node.directory.toList := by
  constructor
  · rintro ⟨-, hsame⟩ lead hl hb
    -- a path that is not reached, imported by the file
    obtain ⟨fresh, hfresh⟩ :=
      Infinite.exists_notMem_finset (reachable ⟨before ++ node :: after, modulePath⟩ entryDir).toFinset
    rw [List.mem_toFinset] at hfresh
    have hs := hsame [⟨fresh, some fresh, []⟩]
    exact hfresh ((hs fresh).mp (mem_reachable_of_import ((hs lead).mpr hl) hb (by simp)))
  · intro hapart
    refine ⟨?_, fun imports => ?_⟩
    · exact sameReach_of_changedOnlyIn (changedOnlyIn_replace [] (by simp)) hentry hapart
    · exact sameReach_of_changedOnlyIn (changedOnlyIn_replace [{ node with dependencies := imports }]
        (by simp [FileNode.directory])) hentry hapart

/-- What a file of `pkg/other` imports does not matter while only `pkg/order` is reached. -/
theorem reachable_unchanged_by_other :
    let main := FileNode.ofFile "m" [] ⟨"cmd/api/main.go", "main", "main", false, ["m/pkg/order"]⟩
    let other := FileNode.ofFile "m" [] ⟨"pkg/other/other.go", "other", "other", false, ["m/pkg/other/model"]⟩
    Path.topLevel other.directory ≠ "cmd" ∧ SameReach "cmd" ⟨[main], "m"⟩ ⟨[main, other], "m"⟩ ∧
      ∀ imports, SameReach "cmd" ⟨[main, { other with dependencies := imports }], "m"⟩ ⟨[main, other], "m"⟩ := by
  intro main other
  have hentry : Path.topLevel other.directory ≠ "cmd" := by decide +kernel
  exact ⟨hentry, (reachable_unchanged_iff [main] [] other "m" "cmd" hentry).mpr (by decide +kernel)⟩

/-- **Directories are not told apart by their segments**: `pkg/orders` neither is a reached path nor lies below one, and
yet its imports are reached because `pkg/order` is. -/
theorem reachable_changed_by_sibling : ¬ ∀ (before after : List FileNode) (node : FileNode) (modulePath : String),
    Path.topLevel node.directory ≠ "cmd" →
    (∀ lead ∈ reachable ⟨before ++ node :: after, modulePath⟩ "cmd", Path.isUnder node.directory lead = false) →
    SameReach "cmd" ⟨before ++ after, modulePath⟩ ⟨before ++ node :: after, modulePath⟩ := by
  intro h
  have hmodel := h [FileNode.ofFile "m" [] ⟨"cmd/api/main.go", "main", "main", false, ["m/pkg/order"]⟩] []
    (FileNode.ofFile "m" [] ⟨"pkg/orders/orders.go", "orders", "orders", false, ["m/pkg/orders/model"]⟩) "m"
    (by decide +kernel) (by decide +kernel) "pkg/orders/model"
  revert hmodel
  decide +kernel

end LayerLint.Graph
