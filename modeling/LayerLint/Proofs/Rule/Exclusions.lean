import LayerLint.Rule.SharedImports
import LayerLint.Proofs.Path.Segments
import LayerLint.Proofs.Source.Name
import LayerLint.Proofs.Text.Glob
import Mathlib.Data.Bool.AllAny

/-!
# Packages that patterns exclude

A pattern whose bracket expressions hold no slash matches a package segment by segment, for the rule asks for as many
slashes in the one as in the other (`isMatchedBy_iff`). Where a bracket expression holds a slash, it counts as one of
the pattern without standing for one of the package, and then another wildcard may take a slash
(`isMatchedBy_across_segments`). A path behind which the pattern goes on with `/*` is excluded with all that lies below
it (`isCoveredBy_below_iff`).
-/

namespace LayerLint.Rule

variable {package pattern path : String}

/-- A pattern matches the segments of a package, one by one. -/
def MatchesSegments (pattern package : String) : Prop :=
  List.Forall₂ (fun pattern segment => Glob.matchesText pattern segment = true) (Path.segments pattern)
    (Path.segments package)

theorem isMatchedBy_eq_true : isMatchedBy package pattern = true ↔
    pattern.toList.count '/' = package.toList.count '/' ∧
      Glob.accepts (Glob.parse pattern.toList) package.toList = true := by
  simp [isMatchedBy, Text.count, Glob.matchesText]

/-- **A pattern whose bracket expressions hold no slash matches a package segment by segment.** -/
theorem isMatchedBy_iff (h : Glob.KeepsSlashes pattern.toList) :
    isMatchedBy package pattern = true ↔ MatchesSegments pattern package := by
  rw [isMatchedBy_eq_true, Glob.accepts_iff_forall₂ h, MatchesSegments, Path.segments, Path.segments,
    List.forall₂_map_left_iff, List.forall₂_map_right_iff]
  simp [Glob.matchesText]

theorem toList_below (path rest : String) : (path ++ "/" ++ rest).toList = path.toList ++ '/' :: rest.toList := by
  simp

theorem isUnder_iff_exists :
    Path.isUnder package path = true ↔ package = path ∨ ∃ rest, package = path ++ "/" ++ rest := by
  rw [Path.isUnder, Bool.or_eq_true, beq_iff_eq, Text.startsWith_iff]
  apply or_congr_right
  constructor
  · rintro ⟨rest, hrest⟩
    refine ⟨String.ofList rest, String.toList_inj.mp ?_⟩
    rw [← hrest, toList_below, String.toList_ofList, String.toList_append, List.append_assoc]
    rfl
  · rintro ⟨rest, rfl⟩
    exact ⟨rest.toList, String.toList_append.symm⟩

/-- What matches a path without wildcards and `/*` lies below the path. -/
theorem exists_of_isMatchedBy (h : ∀ c ∈ path.toList, c ∉ Glob.wildcards)
    (hmatch : isMatchedBy package (path ++ "/*") = true) : ∃ rest, package = path ++ "/" ++ rest := by
  have htext : (path ++ "/*").toList = path.toList ++ '/' :: ['*'] := String.toList_append ..
  have hkeeps : Glob.KeepsSlashes (path.toList ++ '/' :: ['*']) := Glob.keepsSlashes_of_not_mem fun hmem => by
    rcases List.mem_append.mp hmem with hmem | hmem
    · exact h '[' hmem (by decide)
    · simp at hmem
  obtain ⟨-, haccepts⟩ := isMatchedBy_eq_true.mp hmatch
  rw [htext, Glob.parse_append_slash hkeeps] at haccepts
  obtain ⟨u, v, huv, hu, -⟩ := Glob.accepts_append_slash.mp haccepts
  rw [Glob.accepts_parse_plain h] at hu
  refine ⟨String.ofList v, String.toList_inj.mp ?_⟩
  rw [huv, hu, toList_below, String.toList_ofList]

/-- **The pattern `p/*` covers `p` and all that lies below it.** -/
theorem isCoveredBy_below_iff (h : ∀ c ∈ path.toList, c ∉ Glob.wildcards) :
    isCoveredBy package (path ++ "/*") = true ↔ package = path ∨ ∃ rest, package = path ++ "/" ++ rest := by
  have hlead : Text.dropEnd (path ++ "/*") 2 = path := Text.dropEnd_append path "/*"
  rw [isCoveredBy, Bool.or_eq_true, Text.endsWith_append, hlead, Bool.true_and, isUnder_iff_exists]
  exact or_iff_right_of_imp fun hmatch => .inr (exists_of_isMatchedBy h hmatch)

/-- **Wildcards stay inside one segment.** A pattern whose bracket expressions hold no slash matches exactly the
packages with as many segments that it matches one by one, and in no match does a wildcard take a slash. The pattern
`p/*`, for a path `p` without wildcards, excludes exactly `p` and all that lies below it. -/
theorem wildcards_stay_in_segments (package : String) :
    (∀ pattern : String, Glob.KeepsSlashes pattern.toList →
      (isMatchedBy package pattern = true ↔ MatchesSegments pattern package) ∧
      (isMatchedBy package pattern = true → ∀ pieces, package.toList = pieces.flatten →
        List.Forall₂ Glob.Element.Covers (Glob.parse pattern.toList) pieces →
        List.Forall₂ (fun element piece => element ≠ Glob.slash → '/' ∉ piece) (Glob.parse pattern.toList) pieces)) ∧
    (∀ path : String, (∀ c ∈ path.toList, c ∉ Glob.wildcards) →
      (isExcluded package [] [path ++ "/*"] = true ↔ package = path ∨ ∃ rest, package = path ++ "/" ++ rest)) := by
  refine ⟨fun pattern hkeeps => ⟨isMatchedBy_iff hkeeps, fun hmatch pieces htext hpieces => ?_⟩,
    fun path hplain => ?_⟩
  · have hcount := (isMatchedBy_eq_true.mp hmatch).1
    rw [htext] at hcount
    exact Glob.not_mem_of_covers hkeeps hpieces hcount
  · simpa [isExcluded] using isCoveredBy_below_iff hplain

/-- The package `log` of one of three hosts, and a package below a host. -/
theorem wildcards_stay_in_segments_host :
    let pieces : List (List Char) := [['x'], ['b'], ['/'], ['l', 'o', 'g']]
    MatchesSegments "x[a-c]/*" "xb/log" ∧ ¬ MatchesSegments "x[a-c]/*" "xb/log/v2" ∧
      List.Forall₂ (fun element piece => element ≠ Glob.slash → '/' ∉ piece) (Glob.parse "x[a-c]/*".toList) pieces ∧
      isExcluded "x.io/log/v2" [] ["x.io" ++ "/*"] = true := by
  intro pieces
  have hkeeps : Glob.KeepsSlashes "x[a-c]/*".toList := by decide +kernel
  have hmatch : isMatchedBy "xb/log" "x[a-c]/*" = true := by decide +kernel
  have hcovers : List.Forall₂ Glob.Element.Covers (Glob.parse "x[a-c]/*".toList) pieces :=
    .cons ⟨'x', rfl, by decide⟩ (.cons ⟨'b', rfl, by decide⟩ (.cons ⟨'/', rfl, by decide⟩ (.cons trivial .nil)))
  obtain ⟨hlog, hpieces⟩ := (wildcards_stay_in_segments "xb/log").1 "x[a-c]/*" hkeeps
  refine ⟨hlog.mp hmatch, ?_, hpieces hmatch pieces (by decide) hcovers, ?_⟩
  · rw [← ((wildcards_stay_in_segments "xb/log/v2").1 "x[a-c]/*" hkeeps).1]
    decide +kernel
  · have hplain : ∀ c ∈ "x.io".toList, c ∉ Glob.wildcards := List.all_iff_forall_prop.mp (by decide +kernel)
    exact ((wildcards_stay_in_segments "x.io/log/v2").2 "x.io" hplain).mpr (.inr ⟨"log/v2", by decide +kernel⟩)

/-- **A star may cross segments where a bracket expression holds a slash**: the star of `x[/.]*a` takes `io/`. -/
theorem isMatchedBy_across_segments : ¬ ∀ package pattern : String,
    isMatchedBy package pattern = true ↔ MatchesSegments pattern package := by
  intro h
  have hmatch : isMatchedBy "x.io/a" "x[/.]*a" = true := by decide +kernel
  have hsegments := (h "x.io/a" "x[/.]*a").mp hmatch
  revert hsegments
  unfold MatchesSegments
  decide +kernel

end LayerLint.Rule
