import LayerLint.Rule.SharedImports
import LayerLint.Proofs.Rule.Imports

/-!
# Layers and the directory policy

`layerOf?` finds the layer with the most segments among those that a directory is or lies below
(`layerOf?_eq_some`), which is also the one with the longest name (`layerOf?_eq_some_iff`). The directory policy looks
for an entry of the directory itself and of its first segment only. Hence a graph without forbidden imports keeps the
rule of a layer that is one of the two, and a longer layer has no say in the directories below it (`layer_rule_kept`,
`layer_rule_not_kept_below`).
-/

namespace LayerLint.Rule

/-! ## The longest text -/

theorem longer_eq_or (a b : String) : longer a b = a ∨ longer a b = b := by
  unfold longer
  split
  · exact Or.inr rfl
  · exact Or.inl rfl

theorem length_le_longer (a b : String) : a.length ≤ (longer a b).length ∧ b.length ≤ (longer a b).length := by
  unfold longer
  split <;> omega

/-- The fold chooses one of the texts. -/
theorem foldl_longer_mem : ∀ (rest : List String) (first : String), rest.foldl longer first ∈ first :: rest
  | [], first => List.mem_singleton_self first
  | next :: rest, first => by
    rw [List.foldl_cons]
    rcases List.mem_cons.mp (foldl_longer_mem rest (longer first next)) with h | h
    · rw [h]
      rcases longer_eq_or first next with h | h <;> simp [h]
    · exact List.mem_cons_of_mem _ (List.mem_cons_of_mem _ h)

/-- The fold chooses a text as long as any. -/
theorem length_le_foldl_longer : ∀ (rest : List String) (first : String), ∀ text ∈ first :: rest,
    text.length ≤ (rest.foldl longer first).length
  | [], _, _, h => Nat.le_of_eq (congrArg String.length (List.mem_singleton.mp h))
  | next :: rest, first, text, h => by
    have ih := length_le_foldl_longer rest (longer first next)
    have hl := length_le_longer first next
    rw [List.foldl_cons]
    rcases List.mem_cons.mp h with rfl | h
    · exact Nat.le_trans hl.1 (ih _ List.mem_cons_self)
    · rcases List.mem_cons.mp h with rfl | h
      · exact Nat.le_trans hl.2 (ih _ List.mem_cons_self)
      · exact ih text (List.mem_cons_of_mem _ h)

/-! ## The layer of a directory -/

variable {directory layer : String} {layers : List String}

/-- Of two directories on the way to a third, the one whose path is not longer comes first. -/
theorem segments_prefix_of_length_le {other : String} (hl : Path.segments layer <+: Path.segments directory)
    (ho : Path.segments other <+: Path.segments directory) (h : other.length ≤ layer.length) :
    Path.segments other <+: Path.segments layer := by
  rcases List.prefix_or_prefix_of_prefix ho hl with h' | h'
  · exact h'
  · by_cases he : layer = other
    · exact he ▸ List.prefix_rfl
    · obtain ⟨rest, hb⟩ := Option.isSome_iff_exists.mp (Path.below?_isSome_iff.mpr ⟨h', he⟩)
      have hlen := congrArg String.length (Path.below?_eq_some_iff.mp hb)
      simp only [String.length_append] at hlen
      have : ("/" : String).length = 1 := rfl
      omega

/-- **The layer of a directory** has the most segments of those that the directory is or lies below. -/
theorem layerOf?_eq_some (h : layerOf? directory layers = some layer) : layer ∈ layers ∧
    Path.segments layer <+: Path.segments directory ∧
    ∀ other ∈ layers, Path.segments other <+: Path.segments directory →
      Path.segments other <+: Path.segments layer := by
  unfold layerOf? at h
  split at h
  · rename_i hm
    cases h
    exact ⟨List.contains_iff_mem.mp hm, List.prefix_rfl, fun _ _ h => h⟩
  · rename_i hm
    split at h
    · cases h
    · rename_i first rest hf
      cases h
      have hmem := foldl_longer_mem rest first
      rw [← hf, List.mem_filter, Path.startsWith_slash_iff] at hmem
      refine ⟨hmem.1, hmem.2.1, fun other ho hp => ?_⟩
      have hne : other ≠ directory := fun he => hm (List.contains_iff_mem.mpr (he ▸ ho))
      have hof : other ∈ first :: rest := hf ▸ List.mem_filter.mpr ⟨ho, Path.startsWith_slash_iff.mpr ⟨hp, hne⟩⟩
      exact segments_prefix_of_length_le hmem.2.1 hp (length_le_foldl_longer rest first other hof)

/-- A directory that is a layer is its own layer. -/
theorem eq_of_mem_layers (h : layerOf? directory layers = some layer) (hm : directory ∈ layers) :
    layer = directory := by
  obtain ⟨-, hp, hmax⟩ := layerOf?_eq_some h
  exact Path.segments_injective (hp.eq_of_length_le (hmax directory hm List.prefix_rfl).length_le)

/-! ## The nearest key -/

/-- The longest of some keys that a path is or lies below. -/
structure IsNearest (keys : List String) (path key : String) : Prop where
  mem : key ∈ keys
  above : Path.segments key <+: Path.segments path
  longest : ∀ other ∈ keys, Path.segments other <+: Path.segments path → other.length ≤ key.length

theorem length_le_of_segments_prefix {a b : String} (h : Path.segments a <+: Path.segments b) :
    a.length ≤ b.length := by
  by_cases hab : a = b
  · rw [hab]
  · obtain ⟨rest, hrest⟩ := Option.isSome_iff_exists.mp (Path.below?_isSome_iff.mpr ⟨h, hab⟩)
    rw [Path.below?_eq_some_iff.mp hrest, String.length_append, String.length_append]
    omega

/-- There is no more than one nearest key. -/
theorem IsNearest.unique {keys : List String} {path key other : String} (h : IsNearest keys path key)
    (ho : IsNearest keys path other) : key = other := by
  have hle := segments_prefix_of_length_le ho.above h.above (ho.longest key h.mem h.above)
  have hge := segments_prefix_of_length_le h.above ho.above (h.longest other ho.mem ho.above)
  apply Path.segments_injective
  exact hle.eq_of_length_le hge.length_le

/-- A path has no layer when it lies below no layer and is none. -/
theorem layerOf?_eq_none_iff : layerOf? directory layers = none ↔
    ∀ layer ∈ layers, ¬ Path.segments layer <+: Path.segments directory := by
  unfold layerOf?
  constructor
  · intro h layer hlayer habove
    split at h
    · cases h
    · rename_i hnone
      have hne : layer ≠ directory := fun heq => hnone (List.contains_iff_mem.mpr (heq ▸ hlayer))
      split at h
      · rename_i hfilter
        refine List.filter_eq_nil_iff.mp hfilter layer hlayer ?_
        exact Path.startsWith_slash_iff.mpr ⟨habove, hne⟩
      · cases h
  · intro h
    rw [if_neg]
    · rw [List.filter_eq_nil_iff.mpr]
      intro layer hlayer hstarts
      exact h layer hlayer (Path.startsWith_slash_iff.mp hstarts).1
    · intro hmem
      exact h directory (List.contains_iff_mem.mp hmem) List.prefix_rfl

/-- **The layer of a directory is the nearest one.** -/
theorem layerOf?_eq_some_iff : layerOf? directory layers = some layer ↔ IsNearest layers directory layer := by
  have hnearest : ∀ {layer}, layerOf? directory layers = some layer → IsNearest layers directory layer := by
    intro layer h
    obtain ⟨hmem, habove, hmax⟩ := layerOf?_eq_some h
    exact ⟨hmem, habove, fun other ho hp => length_le_of_segments_prefix (hmax other ho hp)⟩
  constructor
  · exact hnearest
  · intro h
    cases hfound : layerOf? directory layers with
    | none => exact absurd h.above (layerOf?_eq_none_iff.mp hfound layer h.mem)
    | some found => rw [(hnearest hfound).unique h]

/-! ## The entry of the policy that applies -/

section Entry

variable {graph : Graph} {policy : Policy} {node : FileNode} {target key : String} {allowed : List String}

theorem ruleFor?_of_find? (h : policy.directoriesImport.find? directory = some allowed) :
    ruleFor? policy directory = some (directory, allowed) := by
  simp [ruleFor?, h]

theorem ruleFor?_of_not_mem (h : directory ∉ policy.directoriesImport.keys) : ruleFor? policy directory =
    (policy.directoriesImport.find? (Path.topLevel directory)).map (Path.topLevel directory, ·) := by
  simp only [ruleFor?, List.findSome?_cons, List.findSome?_nil, OrderedMap.find?_eq_none_iff.mpr h]
  cases policy.directoriesImport.find? (Path.topLevel directory) <;> rfl

/-- **Without forbidden imports, every import is allowed by the entry that applies.** -/
theorem allowed_of_no_forbidden (clean : ∀ v ∈ checkImports graph policy, v.kind ≠ .forbiddenImport)
    (hnode : node ∈ graph.nodes) (htarget : target ∈ node.localPaths)
    (hother : ¬(IsBlackboxTest node ∧ target = node.directory))
    (hrule : ruleFor? policy node.directory = some (key, allowed)) :
    ∃ lead ∈ allowed, Path.segments lead <+: Path.segments target := by
  by_contra hnone
  exact clean _ (report_mem_checkImports hnode htarget (forbidden_mem_importFaults hother hrule hnone)) rfl

end Entry

/-! ## Layers and entries -/

/-- **Without forbidden imports, the rule of a layer is kept** by the files of the layer's own directory and, where the
layer is a top-level directory, by all files of the layer. In the directories below a longer layer its rule does not
apply: there the entry of the top-level directory does, if there is one. -/
theorem layer_rule_kept (graph : Graph) (policy : Policy)
    (clean : ∀ v ∈ checkImports graph policy, v.kind ≠ .forbiddenImport) {node : FileNode} (hnode : node ∈ graph.nodes)
    {target : String} (htarget : target ∈ node.localPaths)
    (hother : ¬(IsBlackboxTest node ∧ target = node.directory)) {layer : String}
    (hlayer : layerOf? node.directory policy.directoriesImport.keys = some layer) :
    (layer = node.directory ∨ layer = Path.topLevel node.directory →
      ∃ allowed, policy.directoriesImport.find? layer = some allowed ∧
        ∃ lead ∈ allowed, Path.segments lead <+: Path.segments target) ∧
    (layer ≠ node.directory → layer ≠ Path.topLevel node.directory →
      policy.allowedImports? node.directory (Path.topLevel node.directory) =
        (policy.directoriesImport.find? (Path.topLevel node.directory)).map (Path.topLevel node.directory, ·)) := by
  have hkey := (layerOf?_eq_some hlayer).1
  obtain ⟨allowed, hfind⟩ : ∃ allowed, policy.directoriesImport.find? layer = some allowed :=
    Option.ne_none_iff_exists'.mp fun hn => OrderedMap.find?_eq_none_iff.mp hn hkey
  -- a file outside its layer's own directory is in a directory without an entry
  have hbelow : layer ≠ node.directory → node.directory ∉ policy.directoriesImport.keys :=
    fun hne hm => hne (eq_of_mem_layers hlayer hm)
  constructor
  · intro hown
    have hrule : ruleFor? policy node.directory = some (layer, allowed) := by
      by_cases he : layer = node.directory
      · rw [← he]
        exact ruleFor?_of_find? hfind
      · rw [ruleFor?_of_not_mem (hbelow he), ← hown.resolve_left he, hfind, Option.map_some]
    exact ⟨allowed, hfind, allowed_of_no_forbidden clean hnode htarget hother hrule⟩
  · intro hne _
    rw [allowedImports?_eq, ruleFor?_of_not_mem (hbelow hne)]

/-- The files below `internal` keep the rule of that layer. -/
theorem layer_rule_kept_internal :
    let policy : Policy := { directoriesImport := .ofList [("internal", ["pkg"])] }
    let store := FileNode.ofFile "m" [] ⟨"internal/store/sql/sql.go", "sql", "sql", false, ["m/pkg/row"]⟩
    (∀ v ∈ checkImports ⟨[store], "m"⟩ policy, v.kind ≠ .forbiddenImport) ∧
      layerOf? store.directory policy.directoriesImport.keys = some "internal" ∧
      ∃ allowed, policy.directoriesImport.find? "internal" = some allowed ∧
        ∃ lead ∈ allowed, Path.segments lead <+: Path.segments "pkg/row" := by
  intro policy store
  have clean : ∀ v ∈ checkImports ⟨[store], "m"⟩ policy, v.kind ≠ .forbiddenImport := by decide +kernel
  have hlayer : layerOf? store.directory policy.directoriesImport.keys = some "internal" := by decide +kernel
  exact ⟨clean, hlayer, (layer_rule_kept ⟨[store], "m"⟩ policy clean (List.mem_singleton_self store)
    (by decide +kernel) (by decide +kernel) hlayer).1 (Or.inr (by decide +kernel))⟩

/-- **The rule of a longer layer is not kept below its directory**: `internal/domain/user` belongs to the layer
`internal/domain`, which may import nothing, and imports `internal/infra` unnoticed. -/
theorem layer_rule_not_kept_below : ¬ ∀ (graph : Graph) (policy : Policy),
    (∀ v ∈ checkImports graph policy, v.kind ≠ .forbiddenImport) → ∀ node ∈ graph.nodes, ∀ target ∈ node.localPaths,
    ¬(IsBlackboxTest node ∧ target = node.directory) →
    ∀ layer, layerOf? node.directory policy.directoriesImport.keys = some layer →
      ∃ allowed, policy.directoriesImport.find? layer = some allowed ∧ isImportAllowed target allowed = true := by
  intro h
  let policy : Policy := { directoriesImport := .ofList [("internal/domain", [])] }
  let user := FileNode.ofFile "m" [] ⟨"internal/domain/user/user.go", "user", "user", false, ["m/internal/infra"]⟩
  obtain ⟨allowed, hfind, hallowed⟩ := h ⟨[user], "m"⟩ policy (by decide +kernel) user (List.mem_singleton_self user)
    "internal/infra" (by decide +kernel) (by decide +kernel) "internal/domain" (by decide +kernel)
  have hnothing : policy.directoriesImport.find? "internal/domain" = some [] := by decide +kernel
  cases hnothing.symm.trans hfind
  cases hallowed

end LayerLint.Rule
