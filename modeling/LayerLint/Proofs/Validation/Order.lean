import LayerLint.Proofs.Graph.Change
import LayerLint.Proofs.Rule.TestNaming
import LayerLint.Proofs.Validation.Pass
import Mathlib.Data.Multiset.Bind

/-!
# The order of the files does not matter

A graph with the same files in another order has the same violations, as many of each (`validate_perm`), up to the place
where a shared package is reported and the order in which the report lists the places (`Alike`).

- Reached paths are the least closed set, which does not depend on the order (`Graph.sameReach_of_perm`).
- Directories, packages and keys of groups are each looked at once, in whichever order they are met
  (`Text.distinct_perm`, `Rule.checkTestNaming_perm`).
- The first implementation file of a group is not reported, so no group may have two of them.
-/

namespace LayerLint

variable {graph graph' : Graph} {policy : Policy}

/-! ## Violations that are alike -/

/-- The violations are the same or are reports of one shared package that count as many layers and list the same
places. -/
inductive Alike : Violation → Violation → Prop
  | same (violation : Violation) : Alike violation violation
  | shared (package : String) (layerCount : Nat) {first first' : String} {places places' : List Rule.ImportLocation}
      (h : places.Perm places') :
      Alike (Rule.sharedImport package first layerCount places) (Rule.sharedImport package first' layerCount places')

/-- Other violations are alike only where they are the same. -/
theorem Alike.eq_of_kind_ne {violation other : Violation} (h : Alike violation other)
    (hkind : violation.kind ≠ .sharedExternalImport) : violation = other := by
  cases h with
  | same => rfl
  | shared => exact absurd rfl hkind

/-- A number is known from a text that begins with its digits and a blank. -/
theorem Text.repr_append_blank_inj {n n' : Nat} {rest rest' : List Char}
    (h : n.repr.toList ++ ' ' :: rest = n'.repr.toList ++ ' ' :: rest') : n = n' := by
  have hdigits : ∀ (n : Nat) (rest : List Char),
      (n.repr.toList ++ ' ' :: rest).takeWhile (·.isDigit) = Nat.toDigits 10 n := by
    intro n rest
    have hall : ∀ c ∈ Nat.toDigits 10 n, c.isDigit = true :=
      fun c hc => Nat.isDigit_of_mem_toDigits (by decide) (by decide) hc
    rw [Nat.toList_repr, List.takeWhile_append_of_pos hall, List.takeWhile_cons_of_neg (by decide), List.append_nil]
  have hsame := congrArg (List.takeWhile (·.isDigit)) h
  rw [hdigits, hdigits] at hsame
  have hvalue := congrArg (Nat.ofDigitChars 10 · 0) hsame
  simpa only [Nat.ofDigitChars_toDigits (show 1 < 10 by decide) (show 10 ≤ 10 by decide)] using hvalue

/-- **The report of a shared package** tells the package and the number of layers. -/
theorem Rule.sharedImport_inj {package package' first first' : String} {layerCount layerCount' : Nat}
    {places places' : List Rule.ImportLocation}
    (h : Rule.sharedImport package first layerCount places = Rule.sharedImport package' first' layerCount' places') :
    package = package' ∧ layerCount = layerCount' := by
  have hpackage : package = package' := by
    have hfix := congrArg Violation.fix h
    simp only [sharedImport, String.append_assoc, String.append_right_inj, String.append_left_inj] at hfix
    exact hfix
  subst hpackage
  have hissue := congrArg (String.toList ∘ Violation.issue) h
  simp only [sharedImport, Function.comp_apply, String.toList_append, List.append_assoc,
    List.append_cancel_left_eq] at hissue
  exact ⟨rfl, Text.repr_append_blank_inj hissue⟩

/-- **Reports of shared packages are alike** only where they are about one package and count as many layers. -/
theorem Alike.package_and_layerCount {package package' first first' : String} {layerCount layerCount' : Nat}
    {places places' : List Rule.ImportLocation}
    (h : Alike (Rule.sharedImport package first layerCount places)
      (Rule.sharedImport package' first' layerCount' places')) :
    package = package' ∧ layerCount = layerCount' := by
  generalize hreport : Rule.sharedImport package first layerCount places = report at h
  generalize hother : Rule.sharedImport package' first' layerCount' places' = other at h
  cases h with
  | same => exact Rule.sharedImport_inj (hreport.trans hother.symm)
  | shared =>
    obtain ⟨rfl, rfl⟩ := Rule.sharedImport_inj hreport
    obtain ⟨rfl, rfl⟩ := Rule.sharedImport_inj hother
    exact ⟨rfl, rfl⟩

theorem Alike.of_perm {violations violations' : List Violation} (h : violations.Perm violations') :
    Multiset.Rel Alike violations violations' := by
  rw [Multiset.coe_eq_coe.mpr h]
  exact Multiset.rel_refl_of_refl_on fun violation _ => .same violation

/-- What is alike is alike where a condition puts it in force. -/
theorem Alike.ite {violations violations' : List Violation} {inForce : Bool}
    (h : Multiset.Rel Alike (violations : Multiset Violation) violations') :
    Multiset.Rel Alike ((if inForce then violations else [] : List Violation) : Multiset Violation)
      (if inForce then violations' else [] : List Violation) := by
  split
  · exact h
  · exact .zero

/-- What is alike for each of some things is alike for all of them, in any order. -/
theorem Alike.flatMap {α : Type} {l l' : List α} {f g : α → List Violation} (h : l.Perm l')
    (hfg : ∀ x, Multiset.Rel Alike (f x : Multiset Violation) (g x)) :
    Multiset.Rel Alike (l.flatMap f : Multiset Violation) (l'.flatMap g) := by
  rw [← Multiset.coe_bind, ← Multiset.coe_bind, Multiset.coe_eq_coe.mpr h]
  refine Multiset.rel_bind (r := Eq) ?_ Multiset.rel_eq_refl
  rintro x _ rfl
  exact hfg x

/-! ## Directories and reached paths -/

/-- Each text once, of the same texts in another order. -/
theorem Text.distinct_perm {parts parts' : List String} (h : parts.Perm parts') :
    (Text.distinct parts).Perm (Text.distinct parts') := by
  apply (List.perm_ext_iff_of_nodup (Text.nodup_distinct parts) (Text.nodup_distinct parts')).mpr
  intro part
  rw [Text.mem_distinct, Text.mem_distinct, h.mem_iff]

namespace Graph

theorem packageDirs_perm (h : graph.nodes.Perm graph'.nodes) : graph.packageDirs.Perm graph'.packageDirs :=
  Text.distinct_perm (h.map _)

/-- What the files of a graph do not leave, the same files do not leave in another order. -/
theorem ClosedUnderImports.of_perm {entryDir : String} {paths : Set String}
    (hclosed : graph.ClosedUnderImports entryDir paths) (h : graph.nodes.Perm graph'.nodes) :
    graph'.ClosedUnderImports entryDir paths where
  entry node hnode := hclosed.entry node (h.mem_iff.mpr hnode)
  step lead hlead node hnode := hclosed.step lead hlead node (h.mem_iff.mpr hnode)

/-- **The reached paths do not depend on the order**, for they are the least closed set. -/
theorem sameReach_of_perm (h : graph.nodes.Perm graph'.nodes) (entryDir : String) :
    SameReach entryDir graph graph' := by
  intro path
  constructor
  · exact ((closed_reachable graph' entryDir).of_perm h.symm).mem_of_reachable
  · exact ((closed_reachable graph entryDir).of_perm h).mem_of_reachable

end Graph

/-! ## The passes -/

namespace Rule

theorem checkStructure_of_perm (h : graph.nodes.Perm graph'.nodes) (disk : Disk) (root : Location) :
    checkStructure disk root graph policy = checkStructure disk root graph' policy := by
  have hused : isUsedDirectory graph = isUsedDirectory graph' := by
    funext directory
    exact h.any_eq
  unfold checkStructure detectUnusedDirectories
  rw [hused]

theorem checkImports_perm (h : graph.nodes.Perm graph'.nodes) :
    (checkImports graph policy).Perm (checkImports graph' policy) :=
  h.flatMap_right _

theorem detectUnusedPackages_perm (h : graph.nodes.Perm graph'.nodes) :
    (detectUnusedPackages graph).Perm (detectUnusedPackages graph') := by
  have hreached : (graph.reachable entryPointDir).contains = (graph'.reachable entryPointDir).contains := by
    funext path
    rw [List.contains_eq_mem, List.contains_eq_mem, decide_eq_decide]
    exact Graph.sameReach_of_perm h entryPointDir path
  unfold detectUnusedPackages
  dsimp only
  rw [hreached]
  exact (((Graph.packageDirs_perm h).filter _).filter _).map _

theorem checkTestLocations_perm (h : graph.nodes.Perm graph'.nodes) :
    (checkTestLocations graph policy).Perm (checkTestLocations graph' policy) :=
  (h.filter _).flatMap_right _

theorem checkBlackboxTests_perm (h : graph.nodes.Perm graph'.nodes) :
    (checkBlackboxTests graph).Perm (checkBlackboxTests graph') :=
  ((h.filter _).filter _).map _

/-! ## Test naming -/

section

variable {nodes nodes' : List FileNode}

theorem filesAt_perm (h : nodes.Perm nodes') (key : String × String) (isTest : Bool) :
    (filesAt nodes key isTest).Perm (filesAt nodes' key isTest) :=
  (h.filter _).map _

theorem eq_of_perm_of_length_le_one {α : Type} {l l' : List α} (h : l.Perm l') (hlength : l.length ≤ 1) : l = l' := by
  match l, hlength with
  | [], _ => exact h.nil_eq
  | [_], _ => exact (List.perm_singleton.mp h.symm).symm

/-- What is said of the group of a key comes from the key and the files. -/
theorem checkGroup_groupAt (flagMissingTests : Bool) (nodes : List FileNode) (key : String × String) :
    checkGroup flagMissingTests (groupAt nodes key) =
      ((filesAt nodes key false).drop 1).map (duplicateImpl (.empty key)) ++
        (if 1 < (filesAt nodes key true).length then (filesAt nodes key true).map (duplicateTest (.empty key))
        else []) ++
        (if (filesAt nodes key false).isEmpty then (filesAt nodes key true).map (orphanedTest (.empty key)) else []) ++
        (if flagMissingTests && (filesAt nodes key true).isEmpty then
          ((filesAt nodes key false).take 1).map (missingTest (.empty key)) else []) :=
  rfl

/-- The group of a key with one implementation file at most. -/
theorem checkGroup_perm (h : nodes.Perm nodes') {key : String × String}
    (himpl : (filesAt nodes key false).length ≤ 1) (flagMissingTests : Bool) :
    (checkGroup flagMissingTests (groupAt nodes key)).Perm (checkGroup flagMissingTests (groupAt nodes' key)) := by
  have htests := filesAt_perm h key true
  rw [checkGroup_groupAt, checkGroup_groupAt, eq_of_perm_of_length_le_one (filesAt_perm h key false) himpl,
    htests.length_eq, htests.isEmpty_eq]
  refine .append (.append (.append (.refl _) ?_) ?_) (.refl _)
  · split
    · exact htests.map _
    · exact .nil
  · split
    · exact htests.map _
    · exact .nil

end

/-- **Groups do not depend on the order**, as long as the first implementation file is the only one. -/
theorem checkTestNaming_perm (h : graph.nodes.Perm graph'.nodes)
    (hunique : ∀ key, (filesAt (pairedFiles graph) key false).length ≤ 1) :
    (checkTestNaming graph policy).Perm (checkTestNaming graph' policy) := by
  have hpaired : (pairedFiles graph).Perm (pairedFiles graph') := h.filter _
  obtain ⟨keys, hnodup, hkeys, hviolations⟩ := exists_checkTestNaming_eq graph policy
  obtain ⟨keys', hnodup', hkeys', hviolations'⟩ := exists_checkTestNaming_eq graph' policy
  have hperm : keys.Perm keys' := by
    apply (List.perm_ext_iff_of_nodup hnodup hnodup').mpr
    intro key
    rw [hkeys, hkeys']
    simp only [hpaired.mem_iff]
  rw [hviolations, hviolations']
  exact hperm.flatMap fun key _ => checkGroup_perm hpaired (hunique key) policy.flagMissingTests

/-- Where no two implementation files have one directory and base name, a group has one at most. -/
theorem length_implFiles_le_one {files : List SourceFile}
    (hunique : ((files.filter fun file => !file.isTest).map SourceFile.key).Nodup) (modulePath : String)
    (usages : Usages) (key : String × String) :
    (filesAt (pairedFiles (Graph.build files modulePath usages)) key false).length ≤ 1 := by
  rw [pairedFiles_build, filesAt_map_ofFile, List.length_map, List.filter_filter]
  set atKey := files.filter fun file =>
    decide (file.key = key ∧ file.isTest = false) && !isNamingExempt file.baseName
  have hsublist : atKey.Sublist (files.filter fun file => !file.isTest) := by
    apply List.monotone_filter_right
    intro file h
    rw [Bool.and_eq_true, decide_eq_true_eq] at h
    rw [h.1.2, Bool.not_false]
  have hkeys : ∀ other ∈ atKey.map SourceFile.key, other = key := by
    intro other hother
    obtain ⟨file, hfile, rfl⟩ := List.mem_map.mp hother
    have hat := (List.mem_filter.mp hfile).2
    rw [Bool.and_eq_true, decide_eq_true_eq] at hat
    exact hat.1.1
  have hnodup := hunique.sublist (hsublist.map SourceFile.key)
  rw [List.eq_replicate_of_mem hkeys, List.nodup_replicate, List.length_map] at hnodup
  exact hnodup

/-! ## Shared packages -/

/-- What is reported of a package, from all places. -/
def packageReports (policy : Policy) (places : List ImportLocation) (package : String) : List Violation :=
  let found := places.filter (·.package == package)
  let layerCount := (Text.distinct (found.map (·.layer))).length
  if layerCount < 2 then []
  else if isExcluded package policy.sharedImportExclusions policy.sharedImportExclusionPatterns then []
  else found.head?.toList.map fun first => sharedImport package first.file layerCount found

theorem detectSharedImports_eq (graph : Graph) (policy : Policy) : detectSharedImports graph policy =
    (Text.distinct ((thirdPartyImports graph policy.directoriesImport.keys).map (·.package))).flatMap
      (packageReports policy (thirdPartyImports graph policy.directoriesImport.keys)) :=
  rfl

theorem thirdPartyImports_perm (h : graph.nodes.Perm graph'.nodes) (layers : List String) :
    (thirdPartyImports graph layers).Perm (thirdPartyImports graph' layers) :=
  h.flatMap_right _

theorem alike_packageReports {places places' : List ImportLocation} (h : places.Perm places') (package : String) :
    Multiset.Rel Alike (packageReports policy places package : Multiset Violation)
      (packageReports policy places' package) := by
  have hfound : (places.filter (·.package == package)).Perm (places'.filter (·.package == package)) := h.filter _
  unfold packageReports
  dsimp only
  rw [(Text.distinct_perm (hfound.map _)).length_eq]
  generalize (Text.distinct ((places'.filter (·.package == package)).map (·.layer))).length = layerCount
  split
  · exact .zero
  · split
    · exact .zero
    · generalize places.filter (·.package == package) = found at hfound ⊢
      generalize places'.filter (·.package == package) = found' at hfound ⊢
      cases found with
      | nil =>
        rw [← hfound.nil_eq]
        exact .zero
      | cons first more =>
        cases found' with
        | nil => exact absurd hfound.eq_nil (List.cons_ne_nil first more)
        | cons first' more' => exact .cons (.shared package layerCount hfound) .zero

theorem alike_detectSharedImports (h : graph.nodes.Perm graph'.nodes) :
    Multiset.Rel Alike (detectSharedImports graph policy : Multiset Violation) (detectSharedImports graph' policy) := by
  have hplaces := thirdPartyImports_perm h policy.directoriesImport.keys
  rw [detectSharedImports_eq, detectSharedImports_eq]
  exact Alike.flatMap (Text.distinct_perm (hplaces.map _)) fun package => alike_packageReports hplaces package

end Rule

/-! ## All passes -/

/-- **No pass depends on the order.** -/
theorem Pass.alike_violations (h : graph.nodes.Perm graph'.nodes)
    (hunique : ∀ key, (Rule.filesAt (Rule.pairedFiles graph) key false).length ≤ 1) (run : Run) (pass : Pass) :
    Multiset.Rel Alike (pass.violations graph run : Multiset Violation) (pass.violations graph' run) := by
  cases pass with
  | directories =>
    simp only [violations, Rule.checkStructure_of_perm h]
    exact Alike.of_perm (.refl _)
  | imports => exact Alike.of_perm (Rule.checkImports_perm h)
  | unusedPackages => exact Alike.ite (Alike.of_perm (Rule.detectUnusedPackages_perm h))
  | sharedImports => exact Alike.ite (Rule.alike_detectSharedImports h)
  | testLocations => exact Alike.ite (Alike.of_perm (Rule.checkTestLocations_perm h))
  | blackboxTests => exact Alike.ite (Alike.of_perm (Rule.checkBlackboxTests_perm h))
  | coverage => exact Alike.of_perm (.refl _)
  | testNaming => exact Alike.ite (Alike.of_perm (Rule.checkTestNaming_perm h hunique))

theorem Run.alike_violations (h : graph.nodes.Perm graph'.nodes)
    (hunique : ∀ key, (Rule.filesAt (Rule.pairedFiles graph) key false).length ≤ 1) (run : Run) :
    Multiset.Rel Alike (run.violations graph : Multiset Violation) (run.violations graph') := by
  rw [violations_eq_flatMap, violations_eq_flatMap]
  exact Alike.flatMap (.refl _) fun pass => pass.alike_violations h hunique run

/-- **The order of the files does not matter.** In another order the same files have the same violations, as many of
each, where reports of a shared package count as one if they name as many layers. No two files that are no tests may
have one directory and base name. -/
theorem validate_perm {files files' : List SourceFile} (hperm : files.Perm files')
    (hunique : ((files.filter fun file => !file.isTest).map SourceFile.key).Nodup) (modulePath : String)
    (usages : Usages) (policy : Policy) (coverage : List PackageCoverage) (project : Option Project) :
    Multiset.Rel Alike
      (validate (Graph.build files modulePath usages) policy coverage project : Multiset Violation)
      (validate (Graph.build files' modulePath usages) policy coverage project) :=
  Run.alike_violations (hperm.map _) (Rule.length_implFiles_le_one hunique modulePath usages)
    ⟨policy, coverage, project⟩

/-- Two files in either order: the report of the package that they share names them in their order. -/
theorem validate_perm_pair :
    let a : SourceFile := ⟨"internal/a/a.go", "a", "a", false, ["github.com/x/y"]⟩
    let b : SourceFile := ⟨"internal/b/b.go", "b", "b", false, ["github.com/x/y", "m/internal/a"]⟩
    let policy : Policy :=
      { directoriesImport := .ofList [("internal/a", []), ("internal/b", [])]
        detectSharedImports := true
        strictTestNaming := true
        flagMissingTests := true }
    validate (Graph.build [a, b] "m" []) policy [] none ≠ validate (Graph.build [b, a] "m" []) policy [] none ∧
      Multiset.Rel Alike (validate (Graph.build [a, b] "m" []) policy [] none : Multiset Violation)
        (validate (Graph.build [b, a] "m" []) policy [] none) := by
  intro a b policy
  have hunique : (([a, b].filter fun file => !file.isTest).map SourceFile.key).Nodup := by decide +kernel
  exact ⟨by decide +kernel, validate_perm (.swap b a []) hunique "m" [] policy [] none⟩

end LayerLint
