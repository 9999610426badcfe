import LayerLint.Rule.SharedImports
import LayerLint.Proofs.Path.Segments

/-!
# Packages that layers share

The imports from outside the module in files of layers are listed in the order of the files and their imports
(`outsideImports`), and those of one package are the places of the package (`placesOf`).

- What the rule looks at are the places of packages whose first segment has a dot (`thirdPartyImports_eq_filter`).
- The number of layers that it counts is the number of different layers of the places (`Text.length_distinct`).
- A package is reported when it has such a segment, places in two layers or more and no exclusion (`Shared`). There is
  one report for each of these packages, in the order of their first places, and it lists every place
  (`detectSharedImports_reports`).
-/

namespace LayerLint.Rule

/-! ## Places -/

/-- The imports from outside the module in the files of layers, in the order of the files and their imports. -/
def outsideImports (graph : Graph) (layers : List String) : List ImportLocation :=
  graph.nodes.flatMap fun node =>
    match layerOf? node.directory layers with
    | none => []
    | some layer =>
      (node.dependencies.filter (·.localPath = none)).map fun dep =>
        { package := dep.importPath, file := node.relPath, layer }

/-- The places of a package. -/
def placesOf (graph : Graph) (layers : List String) (package : String) : List ImportLocation :=
  (outsideImports graph layers).filter (·.package = package)

/-- The layers of some places. -/
def layersOf (places : List ImportLocation) : Finset String := (places.map (·.layer)).toFinset

/-- The first segment names a host. -/
def HasHost (package : String) : Prop := ∃ host ∈ (Path.segments package).head?, '.' ∈ host.toList

variable {graph : Graph} {layers : List String} {package layer : String}

theorem mem_outsideImports {place : ImportLocation} : place ∈ outsideImports graph layers ↔
    ∃ node ∈ graph.nodes, layerOf? node.directory layers = some place.layer ∧ node.relPath = place.file ∧
      ∃ dep ∈ node.dependencies, dep.localPath = none ∧ dep.importPath = place.package := by
  simp only [outsideImports, List.mem_flatMap]
  constructor
  · rintro ⟨node, hnode, h⟩
    cases hlayer : layerOf? node.directory layers with
    | none => simp [hlayer] at h
    | some layer =>
      simp only [hlayer, List.mem_map, List.mem_filter, decide_eq_true_eq] at h
      obtain ⟨dep, ⟨hdep, hout⟩, rfl⟩ := h
      exact ⟨node, hnode, hlayer, rfl, dep, hdep, hout, rfl⟩
  · rintro ⟨node, hnode, hlayer, hfile, dep, hdep, hout, hpath⟩
    refine ⟨node, hnode, ?_⟩
    simp only [hlayer, List.mem_map, List.mem_filter, decide_eq_true_eq]
    refine ⟨dep, ⟨hdep, hout⟩, ?_⟩
    rw [hpath, hfile]

/-- The layers of a package are those of the files that import it from outside the module. -/
theorem mem_layersOf_placesOf : layer ∈ layersOf (placesOf graph layers package) ↔
    ∃ node ∈ graph.nodes, layerOf? node.directory layers = some layer ∧
      ∃ dep ∈ node.dependencies, dep.localPath = none ∧ dep.importPath = package := by
  simp only [layersOf, placesOf, List.mem_toFinset, List.mem_map, List.mem_filter, decide_eq_true_eq]
  constructor
  · rintro ⟨place, ⟨hp, rfl⟩, rfl⟩
    obtain ⟨node, hnode, hlayer, -, hdep⟩ := mem_outsideImports.mp hp
    exact ⟨node, hnode, hlayer, hdep⟩
  · rintro ⟨node, hnode, hlayer, hdep⟩
    exact ⟨⟨package, node.relPath, layer⟩, ⟨mem_outsideImports.mpr ⟨node, hnode, hlayer, rfl, hdep⟩, rfl⟩, rfl⟩

theorem hasHost_iff : HasHost package ↔ Import.isStandard package = false := by
  rw [HasHost, Path.head?_segments, Import.isStandard, Bool.not_eq_false', Text.contains_singleton (c := '.') rfl]
  simp

/-- **Third-party imports are the imports from outside the module whose first segment names a host.** -/
theorem thirdPartyImports_eq_filter (graph : Graph) (layers : List String) : thirdPartyImports graph layers =
    (outsideImports graph layers).filter (!Import.isStandard ·.package) := by
  simp only [thirdPartyImports, outsideImports, List.filter_flatMap]
  congr 1
  funext node
  cases layerOf? node.directory layers with
  | none => rfl
  | some layer =>
    simp only [List.filter_map, List.filter_filter]
    congr 1
    refine List.filter_congr fun dep _ => ?_
    cases hlocal : dep.localPath <;> cases hstandard : Import.isStandard dep.importPath <;>
      simp [Dependency.origin, Dependency.isLocal, hlocal, hstandard]

/-! ## Reports -/

/-- The package comes from a host, files of two layers or more import it, and nothing excludes it. -/
structure Shared (graph : Graph) (policy : Policy) (package : String) : Prop where
  /-- Some file imports it from outside the module. -/
  imported : ∃ node ∈ graph.nodes, ∃ dep ∈ node.dependencies, dep.localPath = none ∧ dep.importPath = package
  host : HasHost package
  layers : 2 ≤ (layersOf (placesOf graph policy.directoriesImport.keys package)).card
  kept : isExcluded package policy.sharedImportExclusions policy.sharedImportExclusionPatterns = false

theorem Shared.placesOf_ne_nil {policy : Policy} (h : Shared graph policy package) :
    placesOf graph policy.directoriesImport.keys package ≠ [] := fun hnil => by
  have hlayers := h.layers
  rw [hnil] at hlayers
  cases hlayers

/-- The line of a place. -/
def placeText (place : ImportLocation) : String := place.file ++ " (layer: " ++ place.layer ++ ")"

/-- The report of a package: it stands at the first place, gives the number of layers, and has a line for every
place. -/
def sharedReport (package : String) (first : ImportLocation) (more : List ImportLocation) : Violation :=
  { kind := .sharedExternalImport
    file := first.file
    issue := "External package '" ++ package ++ "' imported by " ++ toString (layersOf (first :: more)).card ++
      " layers\n  Imported by:" ++
        String.join ((first :: more).map fun place => "\n    - " ++ placeText place)
    rule := "External packages should typically be owned by a single layer"
    fix := "Consider: (1) Add '" ++ package ++ "' to shared_external_imports.exclusions if it's a utility, " ++
      "or (2) Refactor to centralize usage in one layer" }

/-- The report of the places of a package, from its first place on. -/
theorem sharedImport_eq_sharedReport (package : String) (first : ImportLocation) (more : List ImportLocation) :
    sharedImport package first.file (layersOf (first :: more)).card (first :: more) =
      sharedReport package first more := by
  have hlisting := Text.append_join_cons "\n    - " (placeText first) (more.map placeText)
  rw [← List.map_cons, List.map_map] at hlisting
  have hlabel : " layers\n  Imported by:\n    - " = " layers\n  Imported by:" ++ "\n    - " := by decide
  simp only [sharedImport, sharedReport, Violation.mk.injEq, true_and, and_true]
  refine ⟨?_, rfl⟩
  show "External package '" ++ package ++ "' imported by " ++ toString (layersOf (first :: more)).card ++
    " layers\n  Imported by:\n    - " ++ Text.join "\n    - " ((first :: more).map placeText) = _
  rw [hlabel, ← String.append_assoc, String.append_assoc, hlisting]
  rfl

/-- Reports of the elements that are kept, one for each, where the others have none. -/
theorem forall₂_filter_flatMap {α β : Type} {keeps : α → Bool} {reports : α → List β} {R : α → β → Prop} :
    ∀ {l : List α}, (∀ x ∈ l, keeps x = true → ∃ y, reports x = [y] ∧ R x y) →
      (∀ x ∈ l, keeps x = false → reports x = []) → List.Forall₂ R (l.filter keeps) (l.flatMap reports)
  | [], _, _ => .nil
  | x :: l, hone, hnone => by
    have ih := forall₂_filter_flatMap (fun y hy => hone y (List.mem_cons_of_mem x hy))
      (fun y hy => hnone y (List.mem_cons_of_mem x hy))
    cases hx : keeps x with
    | true =>
      obtain ⟨y, hy, hR⟩ := hone x List.mem_cons_self hx
      rw [List.filter_cons_of_pos hx, List.flatMap_cons, hy]
      exact .cons hR ih
    | false =>
      rw [List.filter_cons_of_neg (by simp [hx]), List.flatMap_cons, hnone x List.mem_cons_self hx]
      exact ih

theorem thirdPartyImports_filter_package (graph : Graph) (layers : List String)
    (hhost : Import.isStandard package = false) :
    (thirdPartyImports graph layers).filter (·.package == package) = placesOf graph layers package := by
  rw [thirdPartyImports_eq_filter, List.filter_filter, placesOf]
  refine List.filter_congr fun place _ => ?_
  by_cases h : place.package = package <;> simp [h, hhost]

/-- The packages with a host, in the order of their first places. -/
theorem distinct_thirdPartyImports (graph : Graph) (layers : List String) :
    Text.distinct ((thirdPartyImports graph layers).map (·.package)) =
      (Text.distinct ((outsideImports graph layers).map (·.package))).filter (!Import.isStandard ·) := by
  rw [thirdPartyImports_eq_filter, ← Text.distinct_filter, List.filter_map]
  rfl

/-- A package is looked at by the rule when it comes from a host and has places. -/
theorem mem_distinct_thirdPartyImports : package ∈ Text.distinct ((thirdPartyImports graph layers).map (·.package)) ↔
    HasHost package ∧ placesOf graph layers package ≠ [] := by
  rw [distinct_thirdPartyImports, List.mem_filter, Text.mem_distinct, hasHost_iff, Bool.not_eq_true', and_comm,
    List.mem_map, placesOf, ne_eq, List.filter_eq_nil_iff]
  simp

/-- Of a package with a host, the number of layers and the exclusions decide. -/
theorem shared_iff {policy : Policy} (hhost : HasHost package) : Shared graph policy package ↔
    ¬(layersOf (placesOf graph policy.directoriesImport.keys package)).card < 2 ∧
      ¬isExcluded package policy.sharedImportExclusions policy.sharedImportExclusionPatterns = true := by
  constructor
  · intro h
    exact ⟨Nat.not_lt.mpr h.layers, Bool.eq_false_iff.mp h.kept⟩
  · rintro ⟨hcount, hkept⟩
    have hcount := Nat.not_lt.mp hcount
    obtain ⟨layer, hlayer⟩ := Finset.card_pos.mp (Nat.lt_of_lt_of_le Nat.two_pos hcount)
    obtain ⟨node, hnode, -, hdep⟩ := mem_layersOf_placesOf.mp hlayer
    exact ⟨⟨node, hnode, hdep⟩, hhost, hcount, Bool.eq_false_iff.mpr hkept⟩

/-- **One report for every shared package**, in the order of their first places. -/
theorem detectSharedImports_reports (graph : Graph) (policy : Policy) :
    let layers := policy.directoriesImport.keys
    let packages := (outsideImports graph layers).map (·.package)
    ∃ shared : List String, (∀ package, package ∈ shared ↔ Shared graph policy package) ∧
      (shared.Pairwise fun a b => packages.idxOf a < packages.idxOf b) ∧
      List.Forall₂ (fun package violation => ∃ first more, placesOf graph layers package = first :: more ∧
        violation = sharedReport package first more) shared (detectSharedImports graph policy) := by
  classical
  dsimp only
  refine ⟨(Text.distinct ((thirdPartyImports graph policy.directoriesImport.keys).map (·.package))).filter
    (fun package => decide (Shared graph policy package)), fun package => ?_, ?_, ?_⟩
  · rw [List.mem_filter, mem_distinct_thirdPartyImports, decide_eq_true_eq]
    exact ⟨fun h => h.2, fun h => ⟨⟨h.host, h.placesOf_ne_nil⟩, h⟩⟩
  · rw [distinct_thirdPartyImports]
    exact ((Text.pairwise_distinct _).filter _).filter _
  · refine forall₂_filter_flatMap (fun package hp hs => ?_) (fun package hp hs => ?_)
    all_goals
      obtain ⟨hhost, hne⟩ := mem_distinct_thirdPartyImports.mp hp
      -- what the rule counts are the different layers of the places
      have hcount : (Text.distinct ((placesOf graph policy.directoriesImport.keys package).map (·.layer))).length =
        (layersOf (placesOf graph policy.directoriesImport.keys package)).card := Text.length_distinct _
      simp only [thirdPartyImports_filter_package graph policy.directoriesImport.keys (hasHost_iff.mp hhost), hcount]
    · obtain ⟨hlayers, hkept⟩ := (shared_iff hhost).mp (of_decide_eq_true hs)
      obtain ⟨first, more, hfm⟩ := List.exists_cons_of_ne_nil hne
      refine ⟨sharedReport package first more, ?_, first, more, hfm, rfl⟩
      rw [if_neg hlayers, if_neg hkept, hfm, ← sharedImport_eq_sharedReport]
      rfl
    · by_cases hlayers : (layersOf (placesOf graph policy.directoriesImport.keys package)).card < 2
      · rw [if_pos hlayers]
      · have hexcluded := of_not_not fun hkept => of_decide_eq_false hs ((shared_iff hhost).mpr ⟨hlayers, hkept⟩)
        rw [if_neg hlayers, if_pos hexcluded]

end LayerLint.Rule
