import LayerLint.Proofs.Path.Slash
import LayerLint.Proofs.Rule.Imports
import LayerLint.Proofs.Source.Name
import LayerLint.Rule.Coverage
import Mathlib.Data.List.DropRight

/-!
# One comparison behind all tests on paths

A path is compared with a directory in several places: for the rules on imports, for what a scan passes over, for the
imports of the module itself and for the thresholds of packages. Each of these tests is a comparison of the two lists of
segments (`tests_compare_segments`):

- a path is allowed or ignored where its segments begin with those of the directory (`Rule.isImportAllowed_iff`,
  `isIgnored_iff`);
- an import belongs to the module where they begin with those of the module path (`Import.isLocal_classify_iff`);
- its path in the module has the segments behind them (`Import.localPath_classify_eq`, `Rule.segments_pathOfPackage`).
-/

namespace LayerLint

/-! ## Ignored paths and steps -/

namespace Path

variable {path directory : String}

/-- A path without a slash at its end loses nothing. -/
theorem withoutSlash_of_not_endsWith (h : Text.endsWith directory "/" = false) :
    withoutSlash directory = directory := by
  have hkeeps : dropTrailingSlashes directory.toList = directory.toList := by
    apply List.rdropWhile_eq_self_iff.mpr
    intro hne hlast
    have hslash : directory.toList.getLast hne = '/' := by simpa using hlast
    have hends : Text.endsWith directory "/" = true := by
      apply Text.endsWith_iff.mpr
      refine ⟨directory.toList.dropLast, ?_⟩
      calc directory.toList.dropLast ++ "/".toList
          = directory.toList.dropLast ++ [directory.toList.getLast hne] := by rw [hslash]; rfl
        _ = directory.toList := List.dropLast_append_getLast hne
    rw [h] at hends
    cases hends
  rw [withoutSlash, hkeeps, String.ofList_toList]

/-- **A path is ignored where it is an ignored path or lies below one**, whatever slashes end that. -/
theorem isIgnored_iff {ignored : List String} : isIgnored path ignored = true ↔
    ∃ entry ∈ ignored, segments (withoutSlash entry) <+: segments path := by
  rw [isIgnored_eq, List.any_map, List.any_eq_true]
  simp only [Function.comp_apply, isUnder_iff]

/-- The step towards a path ends with the next of its segments. -/
theorem segments_stepTowards {step : String} {more : List String}
    (h : segments path = segments directory ++ step :: more) :
    segments (stepTowards directory path) = segments directory ++ [step] := by
  have hmem : step ∈ segments path := by rw [h]; simp
  rw [stepTowards_of_segments h, segments_append_slash, segments_of_not_mem (not_mem_of_mem_segments hmem)]

end Path

/-! ## Paths in a module -/

namespace Rule

variable {path modulePath : String}

/-- In a module with a name the path of a package is what stands behind the name. -/
theorem pathOfPackage_eq (hmodule : modulePath ≠ "") (path : String) : pathOfPackage path modulePath =
    if path == modulePath then Path.rootDir else (Path.below? modulePath path).getD path := by
  have hnamed : ¬ modulePath.isEmpty = true := by simpa using hmodule
  rw [pathOfPackage, if_neg hnamed]

/-- The path of a package in its module has the segments behind the module path; the module itself is the root. -/
theorem segments_pathOfPackage {more : List String} (hmodule : modulePath ≠ "")
    (h : Path.segments path = Path.segments modulePath ++ more) :
    Path.segments (pathOfPackage path modulePath) = if more = [] then ["."] else more := by
  rw [pathOfPackage_eq hmodule]
  split_ifs with hroot hmore hmore
  · exact Path.segments_of_not_mem (by decide)
  · have hself : path = modulePath := beq_iff_eq.mp hroot
    subst hself
    exact absurd (List.self_eq_append_right.mp h) hmore
  · have hself : path = modulePath := Path.segments_injective (by simpa [hmore] using h)
    exact absurd (beq_iff_eq.mpr hself) hroot
  · obtain ⟨rest, hbelow, hrest⟩ := (Path.segments_eq_append_iff hmore).mp h
    rw [hbelow, Option.getD_some, hrest]

end Rule

namespace Import

variable {path modulePath : String}

theorem isLocal_eq_isUnder (hmodule : modulePath ≠ "") (path : String) :
    isLocal path modulePath = Path.isUnder path modulePath := by
  have hnamed : modulePath.isEmpty = false := by simpa using hmodule
  rw [isLocal, hnamed]
  rfl

/-- **An import belongs to the module where it is the module or lies below it.** -/
theorem isLocal_classify_iff (hmodule : modulePath ≠ "") (usedSymbols : List String) :
    (classify path modulePath usedSymbols).isLocal = true ↔ Path.segments modulePath <+: Path.segments path := by
  rw [Dependency.isLocal, classify, isLocal_eq_isUnder hmodule, ← Path.isUnder_iff]
  cases Path.isUnder path modulePath <;> simp

/-- The path of an import in the module is that of its package. -/
theorem localPath_classify_eq (hmodule : modulePath ≠ "") (h : Path.segments modulePath <+: Path.segments path)
    (usedSymbols : List String) :
    (classify path modulePath usedSymbols).localPath = some (Rule.pathOfPackage path modulePath) := by
  rw [classify, isLocal_eq_isUnder hmodule, if_pos (Path.isUnder_iff.mpr h), Option.some_inj, pathInModule,
    Rule.pathOfPackage_eq hmodule]
  split
  · rfl
  · rename_i hne
    have hbelow : Text.startsWith path (modulePath ++ "/") = true := by
      apply Path.startsWith_slash_iff.mpr
      refine ⟨h, ?_⟩
      rintro rfl
      exact hne (beq_self_eq_true _)
    rw [Path.below?, if_pos hbelow, Option.getD_some]

end Import

/-! ## The comparison -/

namespace Path

open Rule Import

/-- **All tests on paths compare lists of segments.** For any two texts, however many slashes they begin or end with or
have in a row, the tests whether a path is the directory or lies below it agree, `isDirectChild` asks for one segment
more and `isDeepDescendant` for two or more, and the path of an import in its module has the segments behind those of
the module path. -/
theorem tests_compare_segments (path directory : String) :
    (isUnder path directory = true ↔ segments directory <+: segments path) ∧
    (isImportAllowed path [directory] = true ↔ segments directory <+: segments path) ∧
    (Text.endsWith directory "/" = false →
      (isIgnored path [directory] = true ↔ segments directory <+: segments path)) ∧
    (isDirectChild directory path = true ↔ ∃ step, segments path = segments directory ++ [step]) ∧
    (isDeepDescendant directory path = true ↔
      ∃ step next more, segments path = segments directory ++ step :: next :: more) ∧
    (∀ step more, segments path = segments directory ++ step :: more →
      segments (stepTowards directory path) = segments directory ++ [step]) ∧
    (directory ≠ "" → ∀ usedSymbols,
      ((classify path directory usedSymbols).isLocal = true ↔ segments directory <+: segments path) ∧
      ∀ more, segments path = segments directory ++ more →
        (classify path directory usedSymbols).localPath = some (pathOfPackage path directory) ∧
        segments (pathOfPackage path directory) = if more = [] then ["."] else more) := by
  refine ⟨isUnder_iff, ?_, ?_, isDirectChild_iff, isDeepDescendant_iff, ?_, ?_⟩
  · rw [isImportAllowed_iff]
    simp
  · intro hends
    rw [isIgnored_iff]
    simp [withoutSlash_of_not_endsWith hends]
  · intro step more h
    exact segments_stepTowards h
  · intro hmodule usedSymbols
    refine ⟨isLocal_classify_iff hmodule usedSymbols, ?_⟩
    intro more h
    have hprefix : segments directory <+: segments path := ⟨more, h.symm⟩
    exact ⟨localPath_classify_eq hmodule hprefix usedSymbols, segments_pathOfPackage hmodule h⟩

/-- An empty segment counts as any other: behind `/m` the path `/m//a` goes on with an empty segment. -/
theorem tests_compare_segments_empty :
    Text.endsWith "/m" "/" = false ∧ "/m" ≠ "" ∧ segments "/m//a" = segments "/m" ++ ["", "a"] ∧
    isIgnored "/m//a" ["/m"] = true ∧ segments (stepTowards "/m" "/m//a") = segments "/m" ++ [""] ∧
    (classify "/m//a" "/m" []).localPath = some (pathOfPackage "/m//a" "/m") ∧
    segments (pathOfPackage "/m//a" "/m") = ["", "a"] := by
  have hends : Text.endsWith "/m" "/" = false := by decide
  have hmodule : "/m" ≠ "" := by decide
  have hsegments : segments "/m//a" = segments "/m" ++ ["", "a"] := by decide
  obtain ⟨-, -, hignored, -, -, hstep, hlocal⟩ := tests_compare_segments "/m//a" "/m"
  obtain ⟨hpath, hrest⟩ := (hlocal hmodule []).2 ["", "a"] hsegments
  have hprefix : segments "/m" <+: segments "/m//a" := ⟨["", "a"], hsegments.symm⟩
  exact ⟨hends, hmodule, hsegments, (hignored hends).mpr hprefix, hstep "" ["a"] hsegments, hpath, hrest⟩

end Path

end LayerLint
