import LayerLint.Proofs.Path.Way
import Mathlib.Data.List.TakeWhile

/-!
# Directories written with a slash at the end

With a slash at its end the path of a directory has an empty segment more (`segments_slash`), so that other paths lie
below it only where they have an empty segment too (`not_prefix_of_slash`). What takes the slashes off a path
(`trimSlashes`, `withoutSlash`) or joins it to a location does not see the slash.
-/

namespace LayerLint.Path

variable {path directory : String}

theorem segments_slash (path : String) : segments (path ++ "/") = segments path ++ [""] := by
  have hempty : segments "" = [""] := by decide
  rw [← hempty, ← segments_append_slash, String.append_empty]

/-- What lies below the path with the slash lies below the path. -/
theorem prefix_of_slash {steps : List String} (h : segments (path ++ "/") <+: steps) : segments path <+: steps :=
  (segments_slash path ▸ List.prefix_append _ _).trans h

/-- A path without an empty segment does not lie below a path with a slash at the end. -/
theorem not_prefix_of_slash {steps : List String} (h : "" ∉ steps) : ¬ segments (path ++ "/") <+: steps := by
  rw [segments_slash]
  exact fun hstarts => h (hstarts.mem (List.mem_append_right _ (List.mem_singleton_self "")))

theorem not_mem_topLevel (path : String) : '/' ∉ (topLevel path).toList := by
  rw [topLevel, String.toList_ofList]
  intro hmem
  simpa using List.mem_takeWhile_imp hmem

/-- No first segment ends with a slash. -/
theorem topLevel_ne_slash (path directory : String) : topLevel directory ≠ path ++ "/" := by
  intro heq
  refine not_mem_topLevel directory ?_
  rw [heq, String.toList_append]
  exact List.mem_append_right _ (by decide)

/-! ## Without the slash -/

/-- The path without the slashes at its end. -/
def withoutSlash (path : String) : String := String.ofList (dropTrailingSlashes path.toList)

theorem toList_slash (path : String) : (path ++ "/").toList = path.toList ++ ['/'] := by
  rw [String.toList_append]
  rfl

@[simp] theorem withoutSlash_slash (path : String) : withoutSlash (path ++ "/") = withoutSlash path := by
  rw [withoutSlash, withoutSlash, dropTrailingSlashes, dropTrailingSlashes, toList_slash, List.reverse_append]
  rfl

/-- A path is ignored by what is left of the ignored paths. -/
theorem isIgnored_eq (path : String) (ignored : List String) :
    isIgnored path ignored = (ignored.map withoutSlash).any (isUnder path) := by
  rw [isIgnored, List.any_map]
  rfl

@[simp] theorem trimSlashes_slash (path : String) : trimSlashes (path ++ "/") = trimSlashes path := by
  have hdrop : ∀ text : List Char,
      dropTrailingSlashes ((text ++ ['/']).dropWhile (· == '/')) = dropTrailingSlashes (text.dropWhile (· == '/')) := by
    intro text
    induction text with
    | nil => rfl
    | cons c text ih =>
      by_cases hc : c = '/'
      · rw [List.cons_append, List.dropWhile_cons_of_pos (by simpa using hc),
          List.dropWhile_cons_of_pos (by simpa using hc), ih]
      · rw [List.cons_append, List.dropWhile_cons_of_neg (by simpa using hc),
          List.dropWhile_cons_of_neg (by simpa using hc), dropTrailingSlashes, ← List.cons_append, List.reverse_append]
        rfl
  rw [trimSlashes, trimSlashes, toList_slash, hdrop]

end LayerLint.Path

namespace LayerLint.Location

/-- A slash at the end leads nowhere else. -/
theorem join_slash (root : Location) {path : String} (h : path ≠ "") : root.join (path ++ "/") = root.join path := by
  have hparts : (parse (path ++ "/")).parts = (parse path).parts := by
    simp [parse, Path.segments_slash]
  have habsolute : (parse (path ++ "/")).absolute = (parse path).absolute := by
    obtain ⟨c, rest, hpath⟩ := List.exists_cons_of_ne_nil (mt String.toList_eq_nil_iff.mp h)
    have hslash : "/".toList = ['/'] := rfl
    rw [Bool.eq_iff_iff, parse, parse, Text.startsWith_iff, Text.startsWith_iff, Path.toList_slash, hpath, hslash,
      List.cons_append, List.cons_prefix_cons, List.cons_prefix_cons]
    simp
  rw [join, join, hparts, habsolute]
  split
  · exact congrArg₂ Location.mk habsolute hparts
  · rfl

end LayerLint.Location
