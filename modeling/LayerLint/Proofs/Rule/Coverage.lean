import LayerLint.Rule.Coverage
import LayerLint.Proofs.Binary64.Order
import LayerLint.Proofs.OrderedMap
import LayerLint.Proofs.Path.Comparison
import LayerLint.Proofs.Rule.Layer

/-!
# Thresholds are those of the nearest override

The threshold of a package is looked up on the way from its path to its first segment. The leading paths on this way
are what the path is or lies below (`prefix_iff_leadingPath`), from the longest to the shortest, so the first override
that is found is the nearest one (`nearest_of_nearestValue?`). The layer of the path among the overrides, which is
found by searching all of them, is the same one.

A measured package is reported when its coverage is below its threshold (`checkCoverage_below_nearest`).
-/

namespace LayerLint.Rule

variable {overrides : OrderedMap String Binary64} {path key : String} {parts : List String} {n : Nat}
  {value : Binary64}

/-! ## The way to the first segment -/

theorem segments_leadingPath (hparts : ∀ part ∈ parts, '/' ∉ part.toList) (hn : n < parts.length) :
    Path.segments (leadingPath parts (n + 1)) = parts.take (n + 1) := by
  apply Path.segments_join
  · intro hnil
    have hlength := congrArg List.length hnil
    rw [List.length_take, List.length_nil] at hlength
    omega
  · intro part hpart
    exact hparts part (List.mem_of_mem_take hpart)

/-- **What a path is or lies below** are the leading paths of its segments. -/
theorem prefix_iff_leadingPath : Path.segments key <+: Path.segments path ↔
    ∃ n < (Path.segments path).length, key = leadingPath (Path.segments path) (n + 1) := by
  have hsegments : ∀ {n : Nat}, n < (Path.segments path).length →
      Path.segments (leadingPath (Path.segments path) (n + 1)) = (Path.segments path).take (n + 1) :=
    segments_leadingPath fun _ => Path.not_mem_of_mem_segments
  constructor
  · intro h
    have hpos := List.length_pos_iff.mpr (Path.segments_ne_nil key)
    have hle := h.length_le
    refine ⟨(Path.segments key).length - 1, by omega, ?_⟩
    apply Path.segments_injective
    rw [hsegments (by omega), Nat.sub_add_cancel hpos]
    exact List.prefix_iff_eq_take.mp h
  · rintro ⟨n, hn, rfl⟩
    rw [hsegments hn]
    exact List.take_prefix _ _

/-- The walk ends at an override, and it has passed none by. -/
theorem exists_of_nearestValue? (h : nearestValue? overrides parts n = some value) :
    ∃ i < n, overrides.find? (leadingPath parts (i + 1)) = some value ∧
      ∀ j, i < j → j < n → leadingPath parts (j + 1) ∉ overrides.keys := by
  induction n with
  | zero => cases h
  | succ n ih =>
    rw [nearestValue?] at h
    cases hfind : overrides.find? (leadingPath parts (n + 1)) with
    | some found =>
      rw [hfind] at h
      refine ⟨n, Nat.lt_succ_self n, hfind.trans h, ?_⟩
      intro j hlow hhigh
      omega
    | none =>
      rw [hfind] at h
      obtain ⟨i, hi, hvalue, hpassed⟩ := ih h
      refine ⟨i, Nat.lt_succ_of_lt hi, hvalue, ?_⟩
      intro j hlow hhigh
      rcases Nat.lt_succ_iff_lt_or_eq.mp hhigh with hj | rfl
      · exact hpassed j hlow hj
      · exact OrderedMap.find?_eq_none_iff.mp hfind

/-- A walk that finds nothing has met no override. -/
theorem not_mem_of_nearestValue? (h : nearestValue? overrides parts n = none) :
    ∀ i < n, leadingPath parts (i + 1) ∉ overrides.keys := by
  induction n with
  | zero =>
    intro i hi
    omega
  | succ n ih =>
    rw [nearestValue?] at h
    cases hfind : overrides.find? (leadingPath parts (n + 1)) with
    | some found =>
      rw [hfind] at h
      cases h
    | none =>
      rw [hfind] at h
      intro i hi
      rcases Nat.lt_succ_iff_lt_or_eq.mp hi with hi | rfl
      · exact ih h i hi
      · exact OrderedMap.find?_eq_none_iff.mp hfind

/-- **The override that the walk finds is the nearest one.** -/
theorem nearest_of_nearestValue?
    (h : nearestValue? overrides (Path.segments path) (Path.segments path).length = some value) :
    ∃ key, IsNearest overrides.keys path key ∧ overrides.find? key = some value := by
  obtain ⟨i, hi, hvalue, hpassed⟩ := exists_of_nearestValue? h
  refine ⟨_, ⟨OrderedMap.mem_keys_of_find? hvalue, prefix_iff_leadingPath.mpr ⟨i, hi, rfl⟩, ?_⟩, hvalue⟩
  intro other hother habove
  obtain ⟨j, hj, rfl⟩ := prefix_iff_leadingPath.mp habove
  -- the walk has passed all longer paths, so the other one has no more segments
  have hle : j ≤ i := by
    by_contra hlt
    exact hpassed j (by omega) hj hother
  have hparts : ∀ part ∈ Path.segments path, '/' ∉ part.toList := fun part => Path.not_mem_of_mem_segments
  apply length_le_of_segments_prefix
  rw [segments_leadingPath hparts hj, segments_leadingPath hparts hi]
  exact List.take_prefix_take_left (by omega)

/-! ## Thresholds -/

/-- The value for a path: that of the nearest override, or the default where the path lies below none. -/
inductive IsThreshold (overrides : OrderedMap String Binary64) (path : String) (default : Binary64) : Binary64 → Prop
  | override {key : String} {value : Binary64} (nearest : IsNearest overrides.keys path key)
      (found : overrides.find? key = some value) : IsThreshold overrides path default value
  | default (none : ∀ key ∈ overrides.keys, ¬ Path.segments key <+: Path.segments path) :
      IsThreshold overrides path default default

variable {default : Binary64} {packagePath modulePath : String}

/-- There is no more than one threshold. -/
theorem IsThreshold.unique {other : Binary64} (h : IsThreshold overrides path default value)
    (ho : IsThreshold overrides path default other) : value = other := by
  cases h with
  | override hnearest hfound =>
    cases ho with
    | override hnearest' hfound' =>
      rw [hnearest.unique hnearest', hfound'] at hfound
      exact (Option.some.inj hfound).symm
    | default hnone => exact absurd hnearest.above (hnone _ hnearest.mem)
  | default hnone =>
    cases ho with
    | override hnearest _ => exact absurd hnearest.above (hnone _ hnearest.mem)
    | default _ => rfl

theorem isThreshold_thresholdOf : IsThreshold overrides (pathOfPackage packagePath modulePath) default
    (thresholdOf packagePath modulePath default overrides) := by
  rw [thresholdOf]
  cases hwalk : nearestValue? overrides (Path.segments (pathOfPackage packagePath modulePath))
      (Path.segments (pathOfPackage packagePath modulePath)).length with
  | some value =>
    obtain ⟨key, hnearest, hfound⟩ := nearest_of_nearestValue? hwalk
    exact .override hnearest hfound
  | none =>
    refine .default fun key hkey habove => ?_
    obtain ⟨i, hi, rfl⟩ := prefix_iff_leadingPath.mp habove
    exact not_mem_of_nearestValue? hwalk i hi hkey

/-- The value of the layer that a path has among the overrides is its threshold. -/
theorem isThreshold_layerOf? :
    IsThreshold overrides path default (((layerOf? path overrides.keys).bind overrides.find?).getD default) := by
  cases hlayer : layerOf? path overrides.keys with
  | none => exact .default (layerOf?_eq_none_iff.mp hlayer)
  | some key =>
    have hnearest := layerOf?_eq_some_iff.mp hlayer
    cases hfound : overrides.find? key with
    | none => exact absurd hnearest.mem (OrderedMap.find?_eq_none_iff.mp hfound)
    | some value =>
      rw [Option.bind_some, hfound]
      exact .override hnearest hfound

/-! ## Paths of packages -/

/-- The path of a package in a module: `.` for the module itself, below it the segments behind those of the module, and
its whole path elsewhere. -/
def IsPathInModule (modulePath packagePath path : String) : Prop :=
  if modulePath ≠ "" ∧ Path.segments modulePath <+: Path.segments packagePath then
    if packagePath = modulePath then path = "."
    else Path.segments packagePath = Path.segments modulePath ++ Path.segments path
  else path = packagePath

theorem isPathInModule_iff {modulePath packagePath other : String} :
    IsPathInModule modulePath packagePath other ↔ other = pathOfPackage packagePath modulePath := by
  rw [IsPathInModule]
  split_ifs with hinside hself
  · obtain ⟨hmodule, -⟩ := hinside
    rw [pathOfPackage_eq hmodule, if_pos (beq_iff_eq.mpr hself), Path.rootDir]
  · obtain ⟨hmodule, more, hmore⟩ := hinside
    have hne : more ≠ [] := by
      rintro rfl
      exact hself (Path.segments_injective (by simpa using hmore.symm))
    rw [← Path.segments_injective.eq_iff, segments_pathOfPackage hmodule hmore.symm, if_neg hne, ← hmore,
      List.append_right_inj, eq_comm]
  · by_cases hmodule : modulePath = ""
    · simp [pathOfPackage, hmodule]
    · have hbelow : Path.below? modulePath packagePath = none := by
        rw [Option.eq_none_iff_forall_not_mem, ← not_exists]
        exact fun hsome => hinside ⟨hmodule, (Path.below?_isSome_iff.mp (Option.isSome_iff_exists.mpr hsome)).1⟩
      rw [pathOfPackage_eq hmodule, hbelow, Option.getD_none, ite_eq_right_iff.mpr]
      intro hself
      exact absurd ⟨hmodule, by rw [beq_iff_eq.mp hself]⟩ hinside

/-! ## Reports -/

/-- The threshold of a measured package. -/
def thresholdFor (policy : Policy) (row : PackageCoverage) : Binary64 :=
  thresholdOf row.packagePath policy.modulePath policy.coverageThreshold policy.packageThresholds

theorem checkCoverage_eq (policy : Policy) (rows : List PackageCoverage) : checkCoverage policy rows =
    (rows.filter fun row => row.coverage.IsBelow (thresholdFor policy row)).map fun row =>
      insufficientCoverage row (thresholdFor policy row) := by
  induction rows with
  | nil => rfl
  | cons row rows ih =>
    rw [checkCoverage] at ih ⊢
    rw [List.flatMap_cons, ih, checkPackageCoverage, ← thresholdFor]
    by_cases hbelow : row.coverage.IsBelow (thresholdFor policy row)
    · rw [if_pos (Binary64.lt_eq_true_iff.mpr hbelow), List.filter_cons_of_pos (by simpa using hbelow), List.map_cons]
      rfl
    · rw [if_neg (mt Binary64.lt_eq_true_iff.mp hbelow), List.filter_cons_of_neg (by simpa using hbelow)]
      rfl

/-- **Coverage is checked against the nearest override.** The threshold of a package is the override of the longest key
that its path inside the module is or lies below, else the default; the search for the layer of the path among the keys
finds the same key. Exactly the measured packages with a coverage below their thresholds are reported, each once, by its
path and in order. -/
theorem checkCoverage_below_nearest :
    (∀ (packagePath modulePath : String) (default : Binary64) (overrides : OrderedMap String Binary64),
      let path := pathOfPackage packagePath modulePath
      (∀ other, IsPathInModule modulePath packagePath other ↔ other = path) ∧
      (∀ value, IsThreshold overrides path default value ↔
        value = thresholdOf packagePath modulePath default overrides) ∧
      thresholdOf packagePath modulePath default overrides =
        ((layerOf? path overrides.keys).bind overrides.find?).getD default) ∧
    ∀ (policy : Policy) (rows : List PackageCoverage),
      let below := rows.filter fun row => row.coverage.IsBelow (thresholdFor policy row)
      checkCoverage policy rows = (below.map fun row => insufficientCoverage row (thresholdFor policy row)) ∧
        (checkCoverage policy rows).map (fun v => (v.kind, v.file)) =
          below.map fun row => (.insufficientCoverage, row.packagePath) := by
  refine ⟨fun packagePath modulePath default overrides => ⟨fun _ => isPathInModule_iff, fun value => ?_, ?_⟩,
    fun policy rows => ⟨checkCoverage_eq policy rows, by rw [checkCoverage_eq, List.map_map]; rfl⟩⟩
  · constructor
    · intro h
      exact h.unique isThreshold_thresholdOf
    · rintro rfl
      exact isThreshold_thresholdOf
  · exact isThreshold_thresholdOf.unique isThreshold_layerOf?

end LayerLint.Rule
