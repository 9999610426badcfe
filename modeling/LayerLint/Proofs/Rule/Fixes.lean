import LayerLint.Rule.SharedImports
import LayerLint.Rule.TestPlacement
import LayerLint.Proofs.Rule.Imports

/-!
# The suggested fixes mend what they are suggested for

A report that says how to mend its fault is followed in the graph or in the policy, and the rule is checked again.

- An import that skips a level is replaced by the path one level below the directory. The rules of `cmd` and `pkg`
  have nothing against that path (`kind_of_mem_checkImport_step`).
- A test in the package that it tests is given the package that the report names, which has the suffix of blackbox
  tests (`checkBlackboxTests_rename`).
- A shared package is added to the exclusions, which concerns that package only (`sharedReports_exclude`).

Each time the other reports stay as they are, in their order (`fixes_mend`).
-/

namespace LayerLint

/-! ## Changes -/

/-- The graph with another file in the place of one. -/
def Graph.setNode (graph : Graph) (i : Nat) (node : FileNode) : Graph := { graph with nodes := graph.nodes.set i node }

/-- The file with another import in the place of one. -/
def FileNode.setImport (node : FileNode) (j : Nat) (dep : Dependency) : FileNode :=
  { node with dependencies := node.dependencies.set j dep }

/-- The file in another package. -/
def FileNode.rename (node : FileNode) (package : String) : FileNode := { node with package }

/-- The policy with one exclusion more. -/
def Policy.exclude (policy : Policy) (package : String) : Policy :=
  { policy with sharedImportExclusions := policy.sharedImportExclusions ++ [package] }

/-- Rules on the layout of `cmd` and `pkg` are broken, not those of the directory policy. -/
def ViolationKind.IsIsolation (kind : ViolationKind) : Prop := kind ∈ [crossEntryPoint, skipLevel, pkgToPkg]

/-- The import of a path inside a module. -/
theorem Import.localPath_classify {modulePath : String} (h : modulePath ≠ "") (path : String) (symbols : List String) :
    (Import.classify (modulePath ++ "/" ++ path) modulePath symbols).localPath = some path := by
  have hunder : Path.isUnder (modulePath ++ "/" ++ path) modulePath = true := by
    rw [Path.isUnder_iff, Path.segments_append_slash]
    exact List.prefix_append _ _
  have hne : modulePath ++ "/" ++ path ≠ modulePath := fun heq => by
    have hlength := congrArg Path.segments heq
    rw [Path.segments_append_slash] at hlength
    exact Path.segments_ne_nil path (List.self_eq_append_right.mp hlength.symm)
  have hlocal : Import.isLocal (modulePath ++ "/" ++ path) modulePath = true := by
    simp [Import.isLocal, hunder, h]
  simp only [Import.classify, hlocal, if_true, Import.pathInModule, beq_iff_eq, if_neg hne, Path.drop_append_slash]

namespace Rule

section Reports

variable {α β : Type} {l : List α} {a : α}

/-- The reports of a list in which one element is another. -/
theorem exists_flatMap_set {i : Nat} (h : l[i]? = some a) (reports : α → List β) :
    ∃ before after, l.flatMap reports = before ++ reports a ++ after ∧
      ∀ b, (l.set i b).flatMap reports = before ++ reports b ++ after := by
  obtain ⟨hi, rfl⟩ := List.getElem?_eq_some_iff.mp h
  refine ⟨(l.take i).flatMap reports, (l.drop (i + 1)).flatMap reports, ?_, fun b => ?_⟩
  · conv_lhs => rw [← List.take_append_drop i l, List.drop_eq_getElem_cons hi]
    rw [List.flatMap_append, List.flatMap_cons, List.append_assoc]
  · rw [List.set_eq_take_append_cons_drop, if_pos hi, List.flatMap_append, List.flatMap_cons, List.append_assoc]

/-- The reports of different elements, one of which has none any more. -/
theorem exists_flatMap_without {reports reports' : α → List β} (hnodup : l.Nodup) (ha : a ∈ l)
    (hown : reports' a = []) (hother : ∀ b ≠ a, reports' b = reports b) :
    ∃ before after, l.flatMap reports = before ++ reports a ++ after ∧ l.flatMap reports' = before ++ after := by
  obtain ⟨s, t, rfl⟩ := List.append_of_mem ha
  have hs : ∀ b ∈ s, reports' b = reports b := fun b hb =>
    hother b fun hab => (List.nodup_middle.mp hnodup).notMem (List.mem_append_left t (hab ▸ hb))
  have ht : ∀ b ∈ t, reports' b = reports b := fun b hb =>
    hother b fun hab => (List.nodup_middle.mp hnodup).notMem (List.mem_append_right s (hab ▸ hb))
  refine ⟨s.flatMap reports, t.flatMap reports, ?_, ?_⟩
  · rw [List.flatMap_append, List.flatMap_cons, List.append_assoc]
  · rw [List.flatMap_append, List.flatMap_cons, hown, List.nil_append, List.flatMap_congr hs, List.flatMap_congr ht]

end Reports

/-! ## Skipped levels -/

section SkippedLevels

variable {graph : Graph} {policy : Policy} {node : FileNode} {dep : Dependency} {target : String} {v : Violation}

/-- A level is skipped by a library package that imports what lies two or more levels below it. -/
theorem exists_of_skipLevel {step : String} (h : .skipLevel step ∈ importFaults policy node target) :
    (Path.segments node.directory).head? = some "pkg" ∧
      ∃ next more, Path.segments target = Path.segments node.directory ++ step :: next :: more := by
  unfold importFaults at h
  split at h
  · cases h
  · simp only [List.mem_append] at h
    rcases h with (h | h) | h
    · simp [entryPointFaults] at h
    · unfold libraryFaults at h
      split at h
      · rename_i hpkg
        split at h
        · rename_i hbelow
          obtain ⟨more, hmore⟩ := hbelow
          rw [← hmore, List.drop_left] at h
          refine ⟨hpkg.1, ?_⟩
          rcases more with _ | ⟨first, _ | ⟨next, more⟩⟩
          · simp [subpackageFaults] at h
          · simp [subpackageFaults] at h
          · simp only [subpackageFaults, List.mem_singleton, ImportFault.skipLevel.injEq] at h
            exact ⟨next, more, h ▸ hmore.symm⟩
        · simp at h
      · cases h
    · simp only [policyFaults] at h
      split at h
      · cases h
      · split at h <;> simp at h

/-- **The layout of `cmd` and `pkg` allows the path one level below a library package.** -/
theorem kind_of_mem_checkImport_step {step : String} (hpkg : (Path.segments node.directory).head? = some "pkg")
    (hstep : '/' ∉ step.toList) (hv : v ∈ checkImport policy node (node.directory ++ "/" ++ step)) :
    ¬ v.kind.IsIsolation := by
  have hsegments : Path.segments (node.directory ++ "/" ++ step) = Path.segments node.directory ++ [step] := by
    rw [Path.segments_append_slash, Path.segments_of_not_mem hstep]
  have hhead : (Path.segments (node.directory ++ "/" ++ step)).head? = some "pkg" := by
    rw [hsegments, List.head?_append, hpkg, Option.some_or]
  have hentry : entryPointFaults (Path.segments node.directory) (Path.segments (node.directory ++ "/" ++ step)) = [] :=
    if_neg fun h => by simp [hpkg] at h
  have hlibrary : libraryFaults (Path.segments node.directory) (Path.segments (node.directory ++ "/" ++ step)) = [] :=
    libraryFaults_of_append hpkg hhead hsegments.symm
  rw [checkImport_eq_reports] at hv
  obtain ⟨fault, hfault, rfl⟩ := List.mem_map.mp hv
  unfold importFaults at hfault
  split at hfault
  · cases hfault
  · -- what remains is said by the directory policy
    simp only [hentry, hlibrary, List.nil_append, policyFaults] at hfault
    split at hfault
    · cases hfault
    · split at hfault
      · cases hfault
      · rw [List.mem_singleton.mp hfault]
        simp [ImportFault.report, ImportFault.kind, ViolationKind.IsIsolation]

/-- The report of a skipped level names the path one level below the directory. -/
theorem exists_step_of_skipLevel (hv : v ∈ checkImport policy node target) (hkind : v.kind = .skipLevel) :
    ∃ step, v.fix = "Import " ++ (node.directory ++ "/" ++ step) ++ " instead" ∧ '/' ∉ step.toList ∧
      (Path.segments node.directory).head? = some "pkg" := by
  rw [checkImport_eq_reports] at hv
  obtain ⟨fault, hfault, rfl⟩ := List.mem_map.mp hv
  cases fault with
  | skipLevel step =>
    obtain ⟨hpkg, next, more, htarget⟩ := exists_of_skipLevel hfault
    have hstep : step ∈ Path.segments target := by simp [htarget]
    exact ⟨step, rfl, Path.not_mem_of_mem_segments hstep, hpkg⟩
  | crossEntryPoint => cases hkind
  | pkgToPkg => cases hkind
  | forbidden key allowed => cases hkind

/-- The reports on one dependency of a file. -/
def dependencyReports (policy : Policy) (node : FileNode) (dep : Dependency) : List Violation :=
  match dep.localPath with
  | none => []
  | some target => checkImport policy node target

theorem checkFile_eq_dependencyReports (policy : Policy) (node : FileNode) :
    checkFile policy node = node.dependencies.flatMap (dependencyReports policy node) :=
  checkFile_eq_flatMap policy node

theorem dependencyReports_of_local (h : dep.localPath = some target) :
    dependencyReports policy node dep = checkImport policy node target := by
  rw [dependencyReports, h]

/-- Replacing an import changes what is reported of that import. -/
theorem exists_checkImports_setImport {i j : Nat} (hnode : graph.nodes[i]? = some node)
    (hdep : node.dependencies[j]? = some dep) (htarget : dep.localPath = some target) :
    ∃ before after, checkImports graph policy = before ++ checkImport policy node target ++ after ∧
      ∀ dep' path, dep'.localPath = some path →
        checkImports (graph.setNode i (node.setImport j dep')) policy =
          before ++ checkImport policy node path ++ after := by
  obtain ⟨before, after, hfiles, hfiles'⟩ := exists_flatMap_set hnode (checkFile policy)
  obtain ⟨earlier, later, hown, hown'⟩ := exists_flatMap_set hdep (dependencyReports policy node)
  refine ⟨before ++ earlier, later ++ after, ?_, fun dep' path hpath => ?_⟩
  · show graph.nodes.flatMap (checkFile policy) = _
    rw [hfiles, checkFile_eq_dependencyReports, hown, dependencyReports_of_local htarget]
    simp only [List.append_assoc]
  · -- the checks of a file look at its imports one by one
    have hfile : checkFile policy (node.setImport j dep') = earlier ++ checkImport policy node path ++ later := by
      rw [checkFile_eq_dependencyReports, ← dependencyReports_of_local hpath]
      exact hown' dep'
    show (graph.nodes.set i (node.setImport j dep')).flatMap (checkFile policy) = _
    rw [hfiles', hfile]
    simp only [List.append_assoc]

end SkippedLevels

/-! ## Tests in the package that they test -/

section BlackboxTests

variable {graph : Graph} {node : FileNode}

/-- The reports of one file on its package. -/
def blackboxReports (node : FileNode) : List Violation :=
  if isTestFile node = true ∧ Text.endsWith node.package testPackageSuffix = false then
    [whiteboxTest node.relPath node.package]
  else []

theorem checkBlackboxTests_eq_flatMap (graph : Graph) :
    checkBlackboxTests graph = graph.nodes.flatMap blackboxReports := by
  unfold checkBlackboxTests testFiles
  induction graph.nodes with
  | nil => rfl
  | cons node rest ih =>
    rw [List.flatMap_cons, ← ih, blackboxReports]
    by_cases htest : isTestFile node = true
    · by_cases hpackage : Text.endsWith node.package testPackageSuffix = true <;> simp [htest, hpackage]
    · simp [htest]

theorem endsWith_expectedTestPackage (path : String) :
    Text.endsWith (expectedTestPackage path) testPackageSuffix = true :=
  List.isSuffixOf_iff_suffix.mpr ⟨_, (String.toList_append ..).symm⟩

/-- **In the package that its report names, a test is not reported.** -/
theorem blackboxReports_rename (node : FileNode) :
    blackboxReports (node.rename (expectedTestPackage node.relPath)) = [] :=
  if_neg fun h => by simp [FileNode.rename, endsWith_expectedTestPackage] at h

theorem checkBlackboxTests_rename {i : Nat} (hnode : graph.nodes[i]? = some node) {v : Violation}
    (hv : v ∈ blackboxReports node) : v = whiteboxTest node.relPath node.package ∧
      ∃ before after, checkBlackboxTests graph = before ++ v :: after ∧
        checkBlackboxTests (graph.setNode i (node.rename (expectedTestPackage node.relPath))) = before ++ after := by
  obtain ⟨before, after, hall, hall'⟩ := exists_flatMap_set hnode blackboxReports
  have hown : blackboxReports node = [whiteboxTest node.relPath node.package] := by
    unfold blackboxReports at hv ⊢
    split at hv
    · rename_i h
      exact if_pos h
    · cases hv
  rw [hown, List.mem_singleton] at hv
  refine ⟨hv, before, after, ?_, ?_⟩
  · rw [checkBlackboxTests_eq_flatMap, hall, hown, hv, List.append_assoc, List.singleton_append]
  · rw [checkBlackboxTests_eq_flatMap]
    show (graph.nodes.set i _).flatMap blackboxReports = _
    rw [hall', blackboxReports_rename, List.append_nil]

end BlackboxTests

/-! ## Shared packages -/

section SharedPackages

variable {graph : Graph} {policy : Policy} {package : String} {v : Violation}

/-- The reports on one package. -/
def sharedReports (graph : Graph) (policy : Policy) (package : String) : List Violation :=
  let found := (thirdPartyImports graph policy.directoriesImport.keys).filter (·.package == package)
  let layerCount := (Text.distinct (found.map (·.layer))).length
  if layerCount < 2 then []
  else if isExcluded package policy.sharedImportExclusions policy.sharedImportExclusionPatterns then []
  else found.head?.toList.map fun first => sharedImport package first.file layerCount found

theorem detectSharedImports_eq_flatMap (graph : Graph) (policy : Policy) : detectSharedImports graph policy =
    (Text.distinct ((thirdPartyImports graph policy.directoriesImport.keys).map (·.package))).flatMap
      (sharedReports graph policy) :=
  rfl

/-- A package has one report at most, and it names the package. -/
theorem sharedReports_eq_singleton (hv : v ∈ sharedReports graph policy package) :
    sharedReports graph policy package = [v] ∧
      v.fix = "Consider: (1) Add '" ++ package ++ "' to shared_external_imports.exclusions if it's a utility, " ++
        "or (2) Refactor to centralize usage in one layer" := by
  unfold sharedReports at hv ⊢
  dsimp only at hv ⊢
  split at hv
  · cases hv
  · split at hv
    · cases hv
    · rename_i hlayers hkept
      rw [if_neg hlayers, if_neg hkept]
      obtain ⟨first, hfirst, rfl⟩ := List.mem_map.mp hv
      rw [Option.mem_toList] at hfirst
      rw [hfirst]
      exact ⟨rfl, rfl⟩

/-- **An exclusion concerns the package that it names.** -/
theorem sharedReports_exclude (graph : Graph) (policy : Policy) (package : String) :
    sharedReports graph (policy.exclude package) package = [] ∧
      ∀ other ≠ package, sharedReports graph (policy.exclude package) other = sharedReports graph policy other := by
  constructor
  · have hexcluded : isExcluded package (policy.exclude package).sharedImportExclusions
        (policy.exclude package).sharedImportExclusionPatterns = true := by
      simp [isExcluded, Policy.exclude]
    unfold sharedReports
    dsimp only
    rw [if_pos hexcluded, ite_self]
  · intro other hother
    have hsame : isExcluded other (policy.exclude package).sharedImportExclusions
        (policy.exclude package).sharedImportExclusionPatterns =
        isExcluded other policy.sharedImportExclusions policy.sharedImportExclusionPatterns := by
      simp [isExcluded, Policy.exclude, hother]
    unfold sharedReports
    dsimp only
    rw [hsame]
    rfl

theorem exists_detectSharedImports_exclude (hv : v ∈ detectSharedImports graph policy) :
    ∃ package before after,
      v.fix = "Consider: (1) Add '" ++ package ++ "' to shared_external_imports.exclusions if it's a utility, " ++
        "or (2) Refactor to centralize usage in one layer" ∧
      detectSharedImports graph policy = before ++ v :: after ∧
      detectSharedImports graph (policy.exclude package) = before ++ after := by
  obtain ⟨package, hpackage, hv⟩ := List.mem_flatMap.mp hv
  obtain ⟨hown, hfix⟩ := sharedReports_eq_singleton hv
  obtain ⟨hnone, hother⟩ := sharedReports_exclude graph policy package
  obtain ⟨before, after, hall, hall'⟩ := exists_flatMap_without (Text.nodup_distinct _) hpackage hnone hother
  refine ⟨package, before, after, hfix, ?_, hall'⟩
  rw [detectSharedImports_eq_flatMap, hall, hown, List.append_assoc, List.singleton_append]

end SharedPackages

/-! ## All fixes -/

/-- **The suggested fixes mend what they are suggested for.** An import that skips a level, replaced by the path that
its report names, breaks no rule of the layout. A test in the package that it tests, renamed as its report says, is
not reported any more. A shared package that is added to the exclusions is not reported any more. All other reports of
the rule stay, in their order. -/
theorem fixes_mend (graph : Graph) (policy : Policy) :
    (∀ (i j : Nat) (node : FileNode) (dep : Dependency) (target : String), graph.nodes[i]? = some node →
      node.dependencies[j]? = some dep → dep.localPath = some target →
      ∀ v ∈ checkImport policy node target, v.kind = .skipLevel →
        ∃ path before after, v.fix = "Import " ++ path ++ " instead" ∧
          checkImports graph policy = before ++ checkImport policy node target ++ after ∧
          (∀ dep', dep'.localPath = some path →
            checkImports (graph.setNode i (node.setImport j dep')) policy =
              before ++ checkImport policy node path ++ after) ∧
          ∀ w ∈ checkImport policy node path, ¬ w.kind.IsIsolation) ∧
    (∀ (i : Nat) (node : FileNode), graph.nodes[i]? = some node →
      ∀ v ∈ checkBlackboxTests { graph with nodes := [node] },
        ∃ name before after,
          v.fix = "Change package declaration from 'package " ++ node.package ++ "' to 'package " ++ name ++ "'" ∧
          checkBlackboxTests graph = before ++ v :: after ∧
          checkBlackboxTests (graph.setNode i (node.rename name)) = before ++ after) ∧
    (∀ v ∈ detectSharedImports graph policy, ∃ package before after,
      v.fix = "Consider: (1) Add '" ++ package ++ "' to shared_external_imports.exclusions if it's a utility, " ++
        "or (2) Refactor to centralize usage in one layer" ∧
      detectSharedImports graph policy = before ++ v :: after ∧
      detectSharedImports graph (policy.exclude package) = before ++ after) := by
  refine ⟨?_, ?_, fun v hv => exists_detectSharedImports_exclude hv⟩
  · intro i j node dep target hnode hdep htarget v hv hkind
    obtain ⟨step, hfix, hstep, hpkg⟩ := exists_step_of_skipLevel hv hkind
    obtain ⟨before, after, hall, hall'⟩ := exists_checkImports_setImport hnode hdep htarget
    exact ⟨node.directory ++ "/" ++ step, before, after, hfix, hall, fun dep' hdep' => hall' dep' _ hdep',
      fun w hw => kind_of_mem_checkImport_step hpkg hstep hw⟩
  · intro i node hnode v hv
    rw [checkBlackboxTests_eq_flatMap, List.flatMap_singleton] at hv
    obtain ⟨rfl, before, after, hall, hall'⟩ := checkBlackboxTests_rename hnode hv
    exact ⟨expectedTestPackage node.relPath, before, after, rfl, hall, hall'⟩

/-- The library `pkg/order` skips a level, its test is in its own package, and `internal` imports the same package of a
third party. -/
theorem fixes_mend_order :
    let order := FileNode.ofFile "m" []
      ⟨"pkg/order/order.go", "order", "order", false, ["m/pkg/order/model/row", "x.io/uuid"]⟩
    let test := FileNode.ofFile "m" [] ⟨"pkg/order/order_test.go", "order", "order", true, []⟩
    let store := FileNode.ofFile "m" [] ⟨"internal/store.go", "internal", "store", false, ["x.io/uuid"]⟩
    let graph : Graph := ⟨[order, test, store], "m"⟩
    let policy : Policy := { directoriesImport := .ofList [("pkg", []), ("internal", [])] }
    (∃ v ∈ checkImport policy order "pkg/order/model/row", v.kind = .skipLevel ∧ ∃ path before after,
      v.fix = "Import " ++ path ++ " instead" ∧
      checkImports (graph.setNode 0 (order.setImport 0 (Import.classify ("m" ++ "/" ++ path) "m" []))) policy =
        before ++ checkImport policy order path ++ after ∧
      ∀ w ∈ checkImport policy order path, ¬ w.kind.IsIsolation) ∧
    (∃ v ∈ checkBlackboxTests graph, ∃ name before after, checkBlackboxTests graph = before ++ v :: after ∧
      checkBlackboxTests (graph.setNode 1 (test.rename name)) = before ++ after) ∧
    (∃ v ∈ detectSharedImports graph policy, ∃ package before after,
      detectSharedImports graph policy = before ++ v :: after ∧
      detectSharedImports graph (policy.exclude package) = before ++ after) := by
  intro order test store graph policy
  obtain ⟨himports, htests, hshared⟩ := fixes_mend graph policy
  refine ⟨?_, ?_, ?_⟩
  · let skipped := ImportFault.report order "pkg/order/model/row" (.skipLevel "model")
    have hskipped : skipped ∈ checkImport policy order "pkg/order/model/row" := by decide +kernel
    obtain ⟨path, before, after, hfix, -, hreplaced, hclean⟩ := himports 0 0 order
      (Import.classify "m/pkg/order/model/row" "m" []) "pkg/order/model/row" rfl rfl (by decide +kernel) skipped
      hskipped rfl
    exact ⟨skipped, hskipped, rfl, path, before, after, hfix,
      hreplaced _ (Import.localPath_classify (by decide) path []), hclean⟩
  · have hwhitebox : whiteboxTest test.relPath test.package ∈ checkBlackboxTests ⟨[test], "m"⟩ := by decide +kernel
    obtain ⟨name, before, after, -, hall, hrenamed⟩ := htests 1 test rfl _ hwhitebox
    exact ⟨_, hall ▸ by simp, name, before, after, hall, hrenamed⟩
  · obtain ⟨v, hv⟩ := List.exists_mem_of_ne_nil (detectSharedImports graph policy) (by decide +kernel)
    obtain ⟨package, before, after, -, hall, hexcluded⟩ := hshared v hv
    exact ⟨v, hv, package, before, after, hall, hexcluded⟩

end Rule

end LayerLint
