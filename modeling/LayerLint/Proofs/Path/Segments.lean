import LayerLint.Path
import LayerLint.Proofs.Text.Search

/-!
# Paths as lists of segments

The tests on paths compare texts. Each of them says something about the segments alone:

- `isUnder`: the segments of the one begin those of the other (`isUnder_iff`);
- `below?` finds what stands behind them (`segments_eq_append_iff`), so `isDirectChild` asks for one segment more
  (`isDirectChild_iff`) and `isDeepDescendant` for two or more (`isDeepDescendant_iff`);
- `stepTowards` adds the next segment (`stepTowards_of_segments`).

Names that are joined by slashes are the segments of the path (`segments_join`).
-/

namespace LayerLint.Path

open Text

/-! ## Segments and texts -/

theorem segments_ne_nil (path : String) : segments path ≠ [] := by
  simp [segments, splitAt_ne_nil]

theorem map_ofList_injective : Function.Injective (List.map String.ofList) :=
  List.map_injective_iff.mpr fun _ _ h => String.ofList_injective h

/-- A path is known by its segments. -/
theorem segments_injective : Function.Injective segments := fun _ _ h =>
  String.toList_inj.mp (splitAt_injective (map_ofList_injective h))

theorem head?_segments (path : String) : (segments path).head? = some (topLevel path) := by
  simp [segments, topLevel, List.head?_map, head?_splitAt]

theorem length_segments (path : String) : (segments path).length = path.toList.count '/' + 1 := by
  rw [segments, List.length_map, length_splitAt]

/-- A path with a slash has two segments or more. -/
theorem contains_slash_iff {path : String} : contains path "/" = true ↔ 1 < (segments path).length := by
  rw [contains_singleton (c := '/') rfl, length_segments, ← List.count_pos_iff]
  omega

theorem segments_append_slash (directory rest : String) :
    segments (directory ++ "/" ++ rest) = segments directory ++ segments rest := by
  simp [segments, splitAt_append_sep]

/-- A text without a slash is one segment. -/
theorem segments_of_not_mem {part : String} (h : '/' ∉ part.toList) : segments part = [part] := by
  have hlength : (segments part).length = 1 := by rw [length_segments, List.count_eq_zero_of_not_mem h]
  obtain ⟨segment, hsegment⟩ := List.length_eq_one_iff.mp hlength
  have hjoin := joinAt_splitAt '/' part.toList
  have hparts : (splitAt '/' part.toList).map String.ofList = [segment] := hsegment
  obtain ⟨piece, hpiece, rfl⟩ := List.map_eq_singleton_iff.mp hparts
  rw [hpiece] at hjoin
  rw [hsegment, show piece = part.toList from hjoin, String.ofList_toList]

theorem not_mem_of_mem_segments {path segment : String} (h : segment ∈ segments path) : '/' ∉ segment.toList := by
  obtain ⟨piece, hpiece, rfl⟩ := List.mem_map.mp h
  rw [String.toList_ofList]
  exact not_mem_of_mem_splitAt hpiece

/-- Segments that are joined are those of the path. -/
theorem segments_join {parts : List String} (hne : parts ≠ []) (h : ∀ part ∈ parts, '/' ∉ part.toList) :
    segments (join "/" parts) = parts := by
  induction parts with
  | nil => exact absurd rfl hne
  | cons first more ih =>
    obtain ⟨hfirst, hmore⟩ := List.forall_mem_cons.mp h
    cases more with
    | nil => simpa [join] using segments_of_not_mem hfirst
    | cons next rest =>
      rw [join_cons_cons, segments_append_slash, segments_of_not_mem hfirst, ih (by simp) hmore]
      rfl

theorem segments_join_append {a b : List String} (ha : a ≠ []) (hb : b ≠ []) :
    segments (join "/" (a ++ b)) = segments (join "/" a) ++ segments (join "/" b) := by
  rw [join_append "/" ha hb, segments_append_slash]

/-! ## What stands below a directory -/

theorem drop_append_slash (directory rest : String) :
    drop (directory ++ "/" ++ rest) (directory.length + 1) = rest := by
  have hlen : directory.length + 1 = (directory.toList ++ ['/']).length := by simp [String.length_toList]
  apply String.toList_inj.mp
  rw [drop, hlen, String.toList_ofList, String.toList_append, String.toList_append]
  exact List.drop_left

theorem below?_eq_some_iff {directory path rest : String} :
    below? directory path = some rest ↔ path = directory ++ "/" ++ rest := by
  unfold below?
  constructor
  · intro h
    split at h
    · rename_i hs
      obtain ⟨tail, ht⟩ := startsWith_iff.mp hs
      have hp : path = directory ++ "/" ++ String.ofList tail := String.toList_inj.mp (by simp [← ht])
      cases h
      rw [hp, drop_append_slash]
    · cases h
  · rintro rfl
    rw [if_pos (startsWith_iff.mpr ⟨rest.toList, by simp⟩), drop_append_slash]

/-- **Segments behind those of a directory are what `below?` finds.** -/
theorem segments_eq_append_iff {directory path : String} {more : List String} (hm : more ≠ []) :
    segments path = segments directory ++ more ↔ ∃ rest, below? directory path = some rest ∧ more = segments rest := by
  constructor
  · intro h
    have hmore : (more.map String.toList).map String.ofList = more := by simp [List.map_map, Function.comp_def]
    have hs : splitAt '/' path.toList = splitAt '/' directory.toList ++ more.map String.toList := by
      apply map_ofList_injective
      rw [List.map_append, hmore]
      exact h
    obtain ⟨rest, hp, hr⟩ := (splitAt_eq_append_iff (by simpa using hm)).mp hs
    refine ⟨String.ofList rest, below?_eq_some_iff.mpr (String.toList_inj.mp ?_), ?_⟩
    · simp [hp]
    · rw [← hmore, hr, segments, String.toList_ofList]
  · rintro ⟨rest, hb, rfl⟩
    rw [below?_eq_some_iff.mp hb, segments_append_slash]

/-- A path lies below a directory when it has the segments of the directory and more. -/
theorem below?_isSome_iff {directory path : String} :
    (below? directory path).isSome = true ↔ segments directory <+: segments path ∧ directory ≠ path := by
  rw [Option.isSome_iff_exists]
  constructor
  · rintro ⟨rest, hb⟩
    have hs := (segments_eq_append_iff (segments_ne_nil rest)).mpr ⟨rest, hb, rfl⟩
    refine ⟨⟨segments rest, hs.symm⟩, ?_⟩
    rintro rfl
    exact segments_ne_nil rest (List.self_eq_append_right.mp hs)
  · rintro ⟨⟨more, hs⟩, hne⟩
    have hm : more ≠ [] := by
      rintro rfl
      exact hne (segments_injective (by simpa using hs))
    obtain ⟨rest, hb, -⟩ := (segments_eq_append_iff hm).mp hs.symm
    exact ⟨rest, hb⟩

theorem startsWith_slash_iff {directory path : String} : startsWith path (directory ++ "/") = true ↔
    segments directory <+: segments path ∧ directory ≠ path := by
  rw [← below?_isSome_iff, below?]
  split <;> simp_all

/-- **A path is a directory or lies below it** when its segments begin with those of the directory. -/
theorem isUnder_iff {path directory : String} :
    isUnder path directory = true ↔ segments directory <+: segments path := by
  rw [isUnder, Bool.or_eq_true, beq_iff_eq, startsWith_slash_iff]
  constructor
  · rintro (rfl | h)
    · exact List.prefix_rfl
    · exact h.1
  · intro h
    by_cases he : path = directory
    · exact Or.inl he
    · exact Or.inr ⟨h, Ne.symm he⟩

/-! ## One level and more -/

theorem isDirectChild_iff {directory path : String} :
    isDirectChild directory path = true ↔ ∃ segment, segments path = segments directory ++ [segment] := by
  unfold isDirectChild
  constructor
  · intro h
    cases hb : below? directory path with
    | none => simp [hb] at h
    | some rest =>
      rw [hb, Bool.not_eq_true', ← Bool.not_eq_true, contains_slash_iff] at h
      have hlen : (segments rest).length = 1 := by
        have := List.length_pos_iff.mpr (segments_ne_nil rest)
        omega
      obtain ⟨segment, hs⟩ := List.length_eq_one_iff.mp hlen
      exact ⟨segment, (segments_eq_append_iff (by simp)).mpr ⟨rest, hb, hs.symm⟩⟩
  · rintro ⟨segment, hs⟩
    obtain ⟨rest, hb, hr⟩ := (segments_eq_append_iff (by simp)).mp hs
    rw [hb, Bool.not_eq_true', ← Bool.not_eq_true, contains_slash_iff, ← hr]
    simp

theorem isDeepDescendant_iff {directory path : String} :
    isDeepDescendant directory path = true ↔
      ∃ step next more, segments path = segments directory ++ step :: next :: more := by
  unfold isDeepDescendant
  constructor
  · intro h
    cases hb : below? directory path with
    | none => simp [hb] at h
    | some rest =>
      rw [hb, contains_slash_iff] at h
      match hs : segments rest, h with
      | step :: next :: more, _ =>
        exact ⟨step, next, more, (segments_eq_append_iff (by simp)).mpr ⟨rest, hb, hs.symm⟩⟩
  · rintro ⟨step, next, more, hs⟩
    obtain ⟨rest, hb, hr⟩ := (segments_eq_append_iff (by simp)).mp hs
    rw [hb, contains_slash_iff, ← hr]
    simp

/-- The step towards a path adds the next of its segments. -/
theorem stepTowards_of_segments {directory path step : String} {more : List String}
    (h : segments path = segments directory ++ step :: more) :
    stepTowards directory path = directory ++ "/" ++ step := by
  obtain ⟨rest, hb, hr⟩ := (segments_eq_append_iff (by simp)).mp h
  have htop : topLevel rest = step := by
    have := head?_segments rest
    rw [← hr] at this
    exact (Option.some.inj this).symm
  simp only [stepTowards, hb, htop]

end LayerLint.Path
