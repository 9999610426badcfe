import LayerLint.Proofs.Text.Search
import LayerLint.Report.Markdown
import Mathlib.Data.List.Forall2

/-!
# What the graph report shows

The section of a file lists the imports of the module and then those of third parties, each kind sorted
(`fileSection_ofFile`): the imports in the order of the report are those of the module, sorted, in front of the others,
sorted (`mergeSort_importOrder`). Sorted texts do not depend on the order they had, and neither do the sections of files
with different paths, so the report is the same for the files in any order, each with its imports in any order
(`markdown_shows`).
-/

namespace LayerLint.Report

variable (modulePath : String) (usages : Usages) (file : SourceFile)

/-! ## Sections -/

/-- The line of an import and, directly behind it, the symbols that are used from it. -/
def importLines (target : String) (symbols : List String) : List String :=
  ("  - " ++ target) :: symbols.map ("    - " ++ ·)

/-- The lines of an import of the module itself. -/
def localLines (path : String) : List String :=
  importLines ("local:" ++ Import.pathInModule path modulePath) (usages.symbols file.relPath path)

/-- The lines of an import of a third party. -/
def thirdPartyLines (path : String) : List String :=
  importLines ("external:" ++ path) (usages.symbols file.relPath path)

/-- The import is of a package outside the module and the standard library. -/
def isThirdParty (path : String) : Bool := !Import.isLocal path modulePath && !Import.isStandard path

/-- Lines are the section of a file: they list the imports of the module and then those of third parties, each
occurrence once and each kind in increasing order. -/
inductive IsSection : List String → Prop
  | empty (h : file.imports = []) : IsSection ["## " ++ file.relPath, "depends on: (none)", ""]
  | listing {inModule thirdParty : List String} (h : file.imports ≠ [])
      (hmodule : inModule.Perm (file.imports.filter (Import.isLocal · modulePath)))
      (hmoduleSorted : inModule.Pairwise (· ≤ ·))
      (hthirdParty : thirdParty.Perm (file.imports.filter (isThirdParty modulePath)))
      (hthirdPartySorted : thirdParty.Pairwise (· ≤ ·)) :
      IsSection (["## " ++ file.relPath, "depends on:"] ++ inModule.flatMap (localLines modulePath usages file) ++
        thirdParty.flatMap (thirdPartyLines usages file) ++ [""])

/-! ## The order of imports -/

/-- Imports of the module come first, and each kind is sorted. -/
def importOrder (a b : String) : Bool :=
  if Import.isLocal a modulePath = Import.isLocal b modulePath then decide (a ≤ b) else Import.isLocal a modulePath

theorem isLocal_classify (path : String) (symbols : List String) :
    (Import.classify path modulePath symbols).isLocal = Import.isLocal path modulePath := by
  rw [Dependency.isLocal, Import.classify]
  split <;> simp_all

theorem dependencyOrder_classify (a b : String) (symbols symbols' : List String) :
    dependencyOrder (Import.classify a modulePath symbols) (Import.classify b modulePath symbols') =
      importOrder modulePath a b := by
  rw [dependencyOrder, importOrder, isLocal_classify, isLocal_classify]
  rfl

theorem pairwise_mergeSort_importOrder (paths : List String) :
    (paths.mergeSort (importOrder modulePath)).Pairwise fun a b => importOrder modulePath a b = true := by
  refine List.pairwise_mergeSort ?_ ?_ paths
  · intro a b c hab hbc
    unfold importOrder at *
    grind
  · intro a b
    unfold importOrder
    grind

/-- Sorted imports of one kind are in order. -/
theorem pairwise_importOrder {paths : List String} {isInModule : Bool}
    (h : ∀ path ∈ paths, Import.isLocal path modulePath = isInModule) :
    (Text.sort paths).Pairwise fun a b => importOrder modulePath a b = true := by
  refine (Text.pairwise_le_sort paths).imp_of_mem fun {a b} ha hb hle => ?_
  rw [Text.sort, List.mem_mergeSort] at ha hb
  rw [importOrder, if_pos ((h a ha).trans (h b hb).symm)]
  exact decide_eq_true hle

/-- **Imports in the order of the report** are those of the module, sorted, and then the others, sorted. -/
theorem mergeSort_importOrder (paths : List String) : paths.mergeSort (importOrder modulePath) =
    Text.sort (paths.filter (Import.isLocal · modulePath)) ++
      Text.sort (paths.filter (!Import.isLocal · modulePath)) := by
  have hmodule : ∀ path ∈ paths.filter (Import.isLocal · modulePath), Import.isLocal path modulePath = true :=
    fun path hpath => (List.mem_filter.mp hpath).2
  have hothers : ∀ path ∈ paths.filter (!Import.isLocal · modulePath), Import.isLocal path modulePath = false :=
    fun path hpath => by simpa using (List.mem_filter.mp hpath).2
  refine List.Perm.eq_of_pairwise ?_ (pairwise_mergeSort_importOrder modulePath paths) ?_ ?_
  · -- only the same import stands both before and behind another
    intro a b _ _ hab hba
    unfold importOrder at hab hba
    grind
  · refine List.pairwise_append.mpr
      ⟨pairwise_importOrder modulePath hmodule, pairwise_importOrder modulePath hothers, ?_⟩
    intro a ha b hb
    rw [Text.sort, List.mem_mergeSort] at ha hb
    rw [importOrder, hmodule a ha, hothers b hb, if_neg (by simp)]
  · refine (List.mergeSort_perm _ _).trans ?_
    refine (List.filter_append_perm (Import.isLocal · modulePath) paths).symm.trans ?_
    exact (List.mergeSort_perm _ _).symm.append (List.mergeSort_perm _ _).symm

/-! ## The section of a file -/

/-- An import has lines if it is of the module or of a third party. -/
theorem dependencyLines_classify (path : String) :
    dependencyLines (Import.classify path modulePath (usages.symbols file.relPath path)) =
      if Import.isLocal path modulePath then localLines modulePath usages file path
      else if isThirdParty modulePath path then thirdPartyLines usages file path else [] := by
  by_cases hlocal : Import.isLocal path modulePath = true
  · rw [if_pos hlocal, dependencyLines, dependencyLine?, Import.classify, if_pos hlocal]
    rfl
  · rw [if_neg hlocal, dependencyLines, dependencyLine?, Import.classify, if_neg hlocal]
    by_cases hstandard : Import.isStandard path = true
    · simp [Dependency.isStandard, Dependency.isLocal, isThirdParty, hstandard]
    · have htarget : "  - external:" ++ path = "  - " ++ ("external:" ++ path) := by
        rw [← String.append_assoc]
        rfl
      simp [Dependency.isStandard, Dependency.isLocal, isThirdParty, hlocal, hstandard, thirdPartyLines, importLines,
        htarget]

/-- Parts without lines may be left out. -/
theorem flatMap_ite_nil (keeps : String → Bool) (lines : String → List String) (paths : List String) :
    (paths.flatMap fun path => if keeps path then lines path else []) = (paths.filter keeps).flatMap lines := by
  induction paths with
  | nil => rfl
  | cons path rest ih =>
    rw [List.flatMap_cons, ih]
    by_cases h : keeps path = true
    · rw [if_pos h, List.filter_cons_of_pos h, List.flatMap_cons]
    · rw [if_neg h, List.filter_cons_of_neg h, List.nil_append]

/-- The lines of imports in the order of the report. -/
theorem flatMap_dependencyLines (paths : List String) :
    ((paths.map fun path => Import.classify path modulePath (usages.symbols file.relPath path)).mergeSort
      dependencyOrder).flatMap dependencyLines =
    (Text.sort (paths.filter (Import.isLocal · modulePath))).flatMap (localLines modulePath usages file) ++
      (Text.sort (paths.filter (isThirdParty modulePath))).flatMap (thirdPartyLines usages file) := by
  have hmap := List.map_mergeSort (r := importOrder modulePath) (s := dependencyOrder)
    (f := fun path => Import.classify path modulePath (usages.symbols file.relPath path)) (l := paths)
    fun a _ b _ => (dependencyOrder_classify modulePath a b _ _).symm
  have hmodule : ∀ path ∈ Text.sort (paths.filter (Import.isLocal · modulePath)),
      dependencyLines (Import.classify path modulePath (usages.symbols file.relPath path)) =
        localLines modulePath usages file path := by
    intro path hpath
    rw [Text.sort, List.mem_mergeSort] at hpath
    rw [dependencyLines_classify, if_pos (List.mem_filter.mp hpath).2]
  have hothers : ∀ path ∈ Text.sort (paths.filter (!Import.isLocal · modulePath)),
      dependencyLines (Import.classify path modulePath (usages.symbols file.relPath path)) =
        if isThirdParty modulePath path then thirdPartyLines usages file path else [] := by
    intro path hpath
    rw [Text.sort, List.mem_mergeSort] at hpath
    rw [dependencyLines_classify, if_neg (by simpa using (List.mem_filter.mp hpath).2)]
  have hthirdParty : ((paths.filter (!Import.isLocal · modulePath)).filter (isThirdParty modulePath)) =
      paths.filter (isThirdParty modulePath) := by
    rw [List.filter_filter]
    refine List.filter_congr fun path _ => ?_
    rw [isThirdParty, Bool.and_right_comm, Bool.and_self]
  rw [← hmap, List.flatMap_map, mergeSort_importOrder, List.flatMap_append, List.flatMap_congr hmodule,
    List.flatMap_congr hothers, flatMap_ite_nil, Text.filter_sort, hthirdParty]

/-- The section of a file, with its imports sorted. -/
def sectionOf : List String :=
  if file.imports = [] then ["## " ++ file.relPath, "depends on: (none)", ""]
  else
    ["## " ++ file.relPath, "depends on:"] ++
      (Text.sort (file.imports.filter (Import.isLocal · modulePath))).flatMap (localLines modulePath usages file) ++
      (Text.sort (file.imports.filter (isThirdParty modulePath))).flatMap (thirdPartyLines usages file) ++ [""]

theorem fileSection_ofFile :
    fileSection (FileNode.ofFile modulePath usages file) = sectionOf modulePath usages file := by
  simp only [fileSection, sectionOf, FileNode.ofFile, List.isEmpty_map, List.isEmpty_iff, flatMap_dependencyLines]
  split
  · rfl
  · simp

theorem isSection_sectionOf : IsSection modulePath usages file (sectionOf modulePath usages file) := by
  rw [sectionOf]
  split
  · rename_i hnone
    exact .empty hnone
  · rename_i hsome
    exact .listing hsome (List.mergeSort_perm _ _) (Text.pairwise_le_sort _) (List.mergeSort_perm _ _)
      (Text.pairwise_le_sort _)

/-! ## Files in any order -/

/-- The files differ in the order of their imports only. -/
inductive SameImports (file : SourceFile) : SourceFile → Prop
  | reorder {imports : List String} (h : file.imports.Perm imports) : SameImports file { file with imports }

/-- The same files in any order, each with its imports in any order. -/
def Reordered (files files' : List SourceFile) : Prop :=
  ∃ between, files.Perm between ∧ List.Forall₂ SameImports between files'

variable {modulePath usages}

theorem sectionOf_congr {file file' : SourceFile} (h : SameImports file file') :
    sectionOf modulePath usages file = sectionOf modulePath usages file' := by
  obtain ⟨hperm⟩ := h
  have hempty : ∀ imports, file.imports.Perm imports → (file.imports = [] ↔ imports = []) := fun imports hperm => by
    rw [← List.length_eq_zero_iff, ← List.length_eq_zero_iff, hperm.length_eq]
  unfold sectionOf localLines thirdPartyLines
  simp only [Text.sort_eq_of_perm (hperm.filter _), hempty _ hperm]

/-- The text of a report on files. -/
theorem markdown_build (files : List SourceFile) (modulePath : String) (usages : Usages) :
    markdown (Graph.build files modulePath usages) =
      Text.join "\n" (["# Dependency Graph", ""] ++
        (Text.sortBy SourceFile.relPath files).flatMap (sectionOf modulePath usages)) := by
  have hnodes := Text.map_sortBy FileNode.relPath (FileNode.ofFile modulePath usages) files
  rw [markdown, Graph.build]
  dsimp only
  rw [← Text.sortBy, ← hnodes, List.flatMap_map]
  simp only [fileSection_ofFile]
  rfl

/-- The sections with the paths of their files. -/
def sections (files : List SourceFile) (modulePath : String) (usages : Usages) : List (String × List String) :=
  files.map fun file => (file.relPath, sectionOf modulePath usages file)

theorem sections_of_forall₂ {files files' : List SourceFile} (h : List.Forall₂ SameImports files files') :
    sections files modulePath usages = sections files' modulePath usages := by
  induction h with
  | nil => rfl
  | @cons file file' _ _ hfile _ ih =>
    have hsection : sectionOf modulePath usages file = sectionOf modulePath usages file' := sectionOf_congr hfile
    obtain ⟨hperm⟩ := hfile
    simp only [sections, List.map_cons] at ih ⊢
    rw [hsection, ih]

/-- The sections of a report are those of the files, sorted by path. -/
theorem flatMap_sectionOf (files : List SourceFile) :
    (Text.sortBy SourceFile.relPath files).flatMap (sectionOf modulePath usages) =
      (Text.sortBy Prod.fst (sections files modulePath usages)).flatMap Prod.snd := by
  rw [sections, ← Text.map_sortBy, List.flatMap_map]
  rfl

/-- **The report shows what each file depends on, and nothing of the order in which files and imports come.** For files
with different paths it is the same in any order of the files and of their imports, and it has their sections in the
order of their paths. -/
theorem markdown_shows {files : List SourceFile} (hdistinct : (files.map (·.relPath)).Nodup) (modulePath : String)
    (usages : Usages) :
    (∀ files', Reordered files files' →
        markdown (Graph.build files' modulePath usages) = markdown (Graph.build files modulePath usages)) ∧
      ∃ sorted parts, sorted.Perm files ∧ sorted.Pairwise (fun a b => a.relPath < b.relPath) ∧
        List.Forall₂ (IsSection modulePath usages) sorted parts ∧
        markdown (Graph.build files modulePath usages) =
          Text.join "\n" (["# Dependency Graph", ""] ++ parts.flatten) := by
  constructor
  · rintro files' ⟨between, hperm, hsame⟩
    have hkeys : ((sections files modulePath usages).map Prod.fst).Nodup := by
      rw [sections, List.map_map]
      exact hdistinct
    rw [markdown_build, markdown_build, flatMap_sectionOf, flatMap_sectionOf, ← sections_of_forall₂ hsame,
      Text.sortBy_eq_of_perm hkeys (hperm.map _)]
    rfl
  · refine ⟨_, (Text.sortBy SourceFile.relPath files).map (sectionOf modulePath usages),
      Text.sortBy_perm SourceFile.relPath files, Text.pairwise_lt_sortBy hdistinct, ?_, ?_⟩
    · rw [List.forall₂_map_right_iff, List.forall₂_same]
      exact fun file _ => isSection_sectionOf modulePath usages file
    · rw [markdown_build, List.flatMap_def]

/-- A file that imports a package twice. -/
def storeFile : SourceFile :=
  ⟨"pkg/store/store.go", "store", "store", false, ["fmt", "m/pkg/model", "example.com/db", "m/pkg/model"]⟩

theorem markdown_shows_store :
    let model : SourceFile := ⟨"pkg/model/model.go", "model", "model", false, []⟩
    let reordered := { storeFile with imports := ["example.com/db", "m/pkg/model", "m/pkg/model", "fmt"] }
    ([storeFile, model].map (·.relPath)).Nodup ∧ ∀ usages : Usages,
      markdown (Graph.build [model, reordered] "m" usages) = markdown (Graph.build [storeFile, model] "m" usages) := by
  refine ⟨by decide, fun usages => (markdown_shows (by decide) "m" usages).1 _ ?_⟩
  exact ⟨_, .swap _ _ [], .cons (.reorder .rfl) (.cons (.reorder (by decide)) .nil)⟩

end LayerLint.Report
