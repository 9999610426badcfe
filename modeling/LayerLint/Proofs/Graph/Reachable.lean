import LayerLint.Graph.Reachable
import LayerLint.Proofs.Text.Search
import Mathlib.Order.Bounds.Basic

/-!
# Reachable packages are a least closed set

A set of paths is closed (`ClosedUnderImports`) when it holds what the entry files import and, with each of its
paths, what the files import whose directory begins with that path.

- One round adds exactly what its paths pull in (`mem_expand`). It keeps that every path is found once and that some
  file imports it (`Found.expand`), and it never leaves a closed set (`expand_subset`).
- The rounds suffice: either a round finds nothing, or there is room for one path less (`expand_saturate`).
- Hence `reachable` lists the least closed set (`isLeast_reachable`), each path once (`nodup_reachable`).
- A path is reached when some file imports it that is reached itself (`mem_reachable_iff`).
-/

namespace LayerLint.Graph

/-- **A set of paths that imports do not leave.** -/
structure ClosedUnderImports (graph : Graph) (entryDir : String) (paths : Set String) : Prop where
  /-- It holds the local imports of the files below the entry directory. -/
  entry : ∀ node ∈ graph.nodes, Path.topLevel node.directory = entryDir → ∀ path ∈ node.localPaths, path ∈ paths
  /-- It holds the local imports of the files whose directory begins with one of its paths. -/
  step : ∀ lead ∈ paths, ∀ node ∈ graph.nodes, lead.toList <+: node.directory.toList →
    ∀ path ∈ node.localPaths, path ∈ paths

variable {graph : Graph} {entryDir path : String} {reached : List String} {paths : Set String}

/-! ## One round -/

theorem mem_importsWhere {selects : FileNode → Bool} : path ∈ graph.importsWhere selects ↔
    ∃ node ∈ graph.nodes, selects node = true ∧ path ∈ node.localPaths := by
  simp [importsWhere, and_assoc]

theorem mem_seeds : path ∈ graph.seeds entryDir ↔
    ∃ node ∈ graph.nodes, Path.topLevel node.directory = entryDir ∧ path ∈ node.localPaths := by
  simp [seeds, mem_importsWhere]

theorem mem_expand : path ∈ graph.expand reached ↔ path ∈ reached ∨
    ∃ node ∈ graph.nodes, (∃ lead ∈ reached, lead.toList <+: node.directory.toList) ∧ path ∈ node.localPaths := by
  simp only [expand, List.mem_append, List.mem_filter, mem_importsWhere, List.any_eq_true, Text.startsWith_iff,
    Bool.not_eq_true', List.contains_eq_mem, decide_eq_false_iff_not]
  constructor
  · rintro (h | ⟨h, -⟩)
    · exact Or.inl h
    · exact Or.inr h
  · intro h
    by_cases hp : path ∈ reached
    · exact Or.inl hp
    · exact Or.inr ⟨h.resolve_left hp, hp⟩

/-- A round that finds nothing changes nothing. -/
theorem expand_eq_self (h : (graph.expand reached).length = reached.length) : graph.expand reached = reached := by
  simp only [expand, List.length_append, Nat.add_eq_left, List.length_eq_zero_iff] at h ⊢
  rw [h, List.append_nil]

theorem length_le_expand (graph : Graph) (reached : List String) : reached.length ≤ (graph.expand reached).length := by
  rw [expand, List.length_append]
  exact Nat.le_add_right _ _

/-- Rounds stay in a closed set. -/
theorem expand_subset (hc : graph.ClosedUnderImports entryDir paths) (h : ∀ p ∈ reached, p ∈ paths) :
    ∀ p ∈ graph.expand reached, p ∈ paths := by
  intro p hp
  rcases mem_expand.mp hp with hp | ⟨node, hn, ⟨lead, hl, hb⟩, hp⟩
  · exact h p hp
  · exact hc.step lead (h lead hl) node hn hb p hp

/-! ## What every round keeps -/

/-- The local imports of all files. -/
def localImports (graph : Graph) : List String := graph.nodes.flatMap (·.localPaths)

/-- Local imports, each found once. -/
structure Found (graph : Graph) (reached : List String) : Prop where
  nodup : reached.Nodup
  subset : reached ⊆ graph.localImports

theorem importsWhere_subset {selects : FileNode → Bool} : graph.importsWhere selects ⊆ graph.localImports := by
  intro p hp
  obtain ⟨node, hn, -, hp⟩ := mem_importsWhere.mp hp
  exact List.mem_flatMap.mpr ⟨node, hn, hp⟩

theorem Found.seeds (graph : Graph) (entryDir : String) : graph.Found (graph.seeds entryDir) :=
  ⟨Text.nodup_distinct _, importsWhere_subset⟩

theorem Found.expand (h : graph.Found reached) : graph.Found (graph.expand reached) := by
  constructor
  · refine List.nodup_append.mpr ⟨h.nodup, (Text.nodup_distinct _).filter _, fun a ha b hb hab => ?_⟩
    have hb := (List.mem_filter.mp hb).2
    simp [← hab, ha] at hb
  · exact List.append_subset.mpr ⟨h.subset, List.Subset.trans (List.filter_subset_self _) importsWhere_subset⟩

theorem Found.length_le (h : graph.Found reached) : reached.length ≤ graph.localImports.length :=
  h.nodup.length_le_of_subset h.subset

/-! ## All rounds -/

/-- What one round keeps, all rounds keep. -/
theorem saturate_induct {P : List String → Prop} (hstep : ∀ l, P l → P (graph.expand l)) :
    ∀ (rounds : Nat) {reached : List String}, P reached → P (graph.saturate rounds reached)
  | 0, _, h => h
  | rounds + 1, reached, h => by
    simp only [saturate]
    split
    · exact h
    · exact saturate_induct hstep rounds (hstep reached h)

/-- **The rounds suffice**: with as many rounds as there are imports left to find, one more finds nothing. -/
theorem expand_saturate : ∀ (rounds : Nat) {reached : List String}, graph.Found reached →
    graph.localImports.length ≤ reached.length + rounds →
    graph.expand (graph.saturate rounds reached) = graph.saturate rounds reached
  | 0, reached, h, hr =>
    expand_eq_self (Nat.le_antisymm (Nat.le_trans h.expand.length_le hr) (length_le_expand graph reached))
  | rounds + 1, reached, h, hr => by
    simp only [saturate]
    split
    · rename_i hlen; exact expand_eq_self hlen
    · rename_i hlen
      have hgrow := length_le_expand graph reached
      exact expand_saturate rounds h.expand (by omega)

theorem seeds_subset_saturate (rounds : Nat) :
    ∀ p ∈ graph.seeds entryDir, p ∈ graph.saturate rounds (graph.seeds entryDir) :=
  saturate_induct (P := fun l => ∀ p ∈ graph.seeds entryDir, p ∈ l)
    (fun _ h p hp => mem_expand.mpr (Or.inl (h p hp))) rounds fun _ hp => hp

theorem nodup_reachable (graph : Graph) (entryDir : String) : (graph.reachable entryDir).Nodup :=
  (saturate_induct (P := graph.Found) (fun _ h => h.expand) _ (Found.seeds graph entryDir)).nodup

/-- The reached paths are closed. -/
theorem closed_reachable (graph : Graph) (entryDir : String) :
    graph.ClosedUnderImports entryDir {p | p ∈ graph.reachable entryDir} where
  entry node hn htop p hp := seeds_subset_saturate _ p (mem_seeds.mpr ⟨node, hn, htop, hp⟩)
  step lead hl node hn hb p hp := by
    have hstable : graph.expand (graph.reachable entryDir) = graph.reachable entryDir :=
      expand_saturate _ (Found.seeds graph entryDir) (Nat.le_add_left _ _)
    show p ∈ graph.reachable entryDir
    rw [← hstable]
    exact mem_expand.mpr (Or.inr ⟨node, hn, ⟨lead, hl, hb⟩, hp⟩)

/-- A closed set holds every reached path. -/
theorem ClosedUnderImports.mem_of_reachable (hc : graph.ClosedUnderImports entryDir paths)
    (h : path ∈ graph.reachable entryDir) : path ∈ paths := by
  refine saturate_induct (P := fun l => ∀ p ∈ l, p ∈ paths) (fun _ => expand_subset hc) _ ?_ path h
  intro p hp
  obtain ⟨node, hn, htop, hp⟩ := mem_seeds.mp hp
  exact hc.entry node hn htop p hp

/-- **The reached paths are the least closed set.** -/
theorem isLeast_reachable (graph : Graph) (entryDir : String) :
    IsLeast {paths | graph.ClosedUnderImports entryDir paths} {p | p ∈ graph.reachable entryDir} :=
  ⟨closed_reachable graph entryDir, fun _ hc _ => hc.mem_of_reachable⟩

/-! ## Files that are reached -/

/-- A file is reached when it is an entry file or a reached path begins its directory. -/
def ReachesFile (graph : Graph) (entryDir : String) (node : FileNode) : Prop :=
  Path.topLevel node.directory = entryDir ∨
    ∃ lead ∈ graph.reachable entryDir, lead.toList <+: node.directory.toList

theorem mem_reachable_of_reachesFile {node : FileNode} (hn : node ∈ graph.nodes)
    (hr : graph.ReachesFile entryDir node) (hp : path ∈ node.localPaths) : path ∈ graph.reachable entryDir := by
  rcases hr with htop | ⟨lead, hl, hb⟩
  · exact (closed_reachable graph entryDir).entry node hn htop path hp
  · exact (closed_reachable graph entryDir).step lead hl node hn hb path hp

/-- What reached files import is closed, for its paths are reached. -/
theorem closed_importedByReached (graph : Graph) (entryDir : String) : graph.ClosedUnderImports entryDir
    {p | ∃ node ∈ graph.nodes, graph.ReachesFile entryDir node ∧ p ∈ node.localPaths} where
  entry node hn htop p hp := ⟨node, hn, .inl htop, hp⟩
  step lead hl node hn hb p hp := by
    obtain ⟨importer, hi, hr, hlead⟩ := hl
    exact ⟨node, hn, .inr ⟨lead, mem_reachable_of_reachesFile hi hr hlead, hb⟩, hp⟩

/-- **A path is reached when a reached file imports it.** -/
theorem mem_reachable_iff : path ∈ graph.reachable entryDir ↔
    ∃ node ∈ graph.nodes, graph.ReachesFile entryDir node ∧ path ∈ node.localPaths := by
  constructor
  · intro h
    exact (closed_importedByReached graph entryDir).mem_of_reachable h
  · rintro ⟨node, hn, hr, hp⟩
    exact mem_reachable_of_reachesFile hn hr hp

end LayerLint.Graph
