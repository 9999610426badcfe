import LayerLint.Text.Search
import Mathlib.Data.Finset.Card
import Mathlib.Data.List.Basic
import Mathlib.Data.List.Infix
import Mathlib.Data.List.Induction
import Mathlib.Data.String.Basic

/-!
# Laws of searching in text

- the tests on texts are the prefix, infix and membership relations on their characters (`startsWith_iff`,
  `contains_iff`, `contains_singleton`);
- a text that begins with another and a separator has the pieces of both (`splitAt_append_sep`), and only such a
  text has them (`splitAt_eq_append_iff`);
- texts of two lists are joined with a separator between them (`join_append`);
- `distinct` keeps every text once (`mem_distinct`, `nodup_distinct`), in the order of first occurrence
  (`pairwise_distinct`), so that it counts different texts (`length_distinct`) and commutes with selection
  (`distinct_filter`);
- things with different texts are sorted one below the other (`pairwise_lt_sortBy`) and in one way
  (`sortBy_eq_of_perm`), and there is one way to sort texts (`eq_sort`).
-/

namespace LayerLint.Text

/-! ## Tests -/

theorem startsWith_iff {s lead : String} : startsWith s lead = true ↔ lead.toList <+: s.toList :=
  List.isPrefixOf_iff_prefix

/-- Some characters stand somewhere in others when they are an infix of them. -/
theorem occursIn_iff {needle s : List Char} : occursIn needle s = true ↔ needle <:+: s := by
  induction s with
  | nil => rw [occursIn, List.isEmpty_iff, List.infix_nil]
  | cons c r ih => rw [occursIn, Bool.or_eq_true, List.isPrefixOf_iff_prefix, ih, List.infix_cons_iff]

theorem contains_iff {s needle : String} : contains s needle = true ↔ needle.toList <:+: s.toList := occursIn_iff

theorem occursIn_singleton {c : Char} {s : List Char} : occursIn [c] s = true ↔ c ∈ s := by
  rw [occursIn_iff, List.singleton_infix_iff]

/-- A text contains a single character when that is one of its characters. -/
theorem contains_singleton {s needle : String} {c : Char} (h : needle.toList = [c]) :
    contains s needle = true ↔ c ∈ s.toList := by
  rw [contains, h, occursIn_singleton]

/-! ## Runs -/

/-- The longest run of such characters at the beginning of a text ends before the first other character. -/
theorem span_append {p : Char → Bool} {a b : List Char} (ha : ∀ c ∈ a, p c) (hb : ∀ c ∈ b.head?, p c = false) :
    (a ++ b).takeWhile p = a ∧ (a ++ b).dropWhile p = b := by
  rw [List.takeWhile_append_of_pos ha, List.dropWhile_append_of_pos ha]
  cases b with
  | nil => simp
  | cons c b => simp [hb c rfl]

/-! ## Pieces -/

section Pieces

variable {sep : Char}

/-- The pieces of two texts with a separator between them. -/
theorem splitAt_append_sep (a b : List Char) : splitAt sep (a ++ sep :: b) = splitAt sep a ++ splitAt sep b := by
  induction a with
  | nil => simp [splitAt]
  | cons c r ih =>
    simp only [List.cons_append, splitAt, ih]
    split
    · rfl
    · cases hr : splitAt sep r with
      | nil => exact absurd hr (splitAt_ne_nil sep r)
      | cons piece rest => rfl

theorem joinAt_append {ys : List (List Char)} (hy : ys ≠ []) : ∀ xs : List (List Char), xs ≠ [] →
    joinAt sep (xs ++ ys) = joinAt sep xs ++ sep :: joinAt sep ys
  | [], h => absurd rfl h
  | [x], _ => by
    cases ys with
    | nil => exact absurd rfl hy
    | cons y ys => rfl
  | x :: x' :: xs, _ => by
    have ih := joinAt_append hy (x' :: xs) (by simp)
    simp only [List.cons_append, joinAt] at ih ⊢
    rw [ih, List.append_assoc, List.cons_append]

theorem splitAt_injective {a b : List Char} (h : splitAt sep a = splitAt sep b) : a = b := by
  rw [← joinAt_splitAt sep a, h, joinAt_splitAt]

/-- The pieces hold no separator. -/
theorem not_mem_of_mem_splitAt {s piece : List Char} (h : piece ∈ splitAt sep s) : sep ∉ piece := by
  induction s generalizing piece with
  | nil => simp_all [splitAt]
  | cons c r ih =>
    simp only [splitAt] at h
    split at h
    · rcases List.mem_cons.mp h with rfl | h
      · simp
      · exact ih h
    · rename_i hc
      cases hr : splitAt sep r with
      | nil => exact absurd hr (splitAt_ne_nil sep r)
      | cons first rest =>
        rw [hr] at h ih
        rcases List.mem_cons.mp h with rfl | h
        · simpa [Ne.symm hc] using ih (.head _)
        · exact ih (.tail _ h)

/-- A text without the separator is one piece. -/
theorem splitAt_of_not_mem {s : List Char} (h : sep ∉ s) : splitAt sep s = [s] := by
  induction s with
  | nil => rfl
  | cons c r ih =>
    simp only [List.mem_cons, not_or] at h
    rw [splitAt, if_neg (Ne.symm h.1), ih h.2]

/-- A text is one piece, or one piece and a text behind the first separator. -/
theorem piecesInduction {motive : List Char → Prop} (last : ∀ s, sep ∉ s → motive s)
    (more : ∀ a b, sep ∉ a → motive b → motive (a ++ sep :: b)) (s : List Char) : motive s := by
  induction hn : s.length using Nat.strongRecOn generalizing s with
  | ind n ih =>
    by_cases hmem : sep ∈ s
    · obtain ⟨a, b, rfl, ha⟩ := List.eq_append_cons_of_mem hmem
      refine more a b ha (ih b.length ?_ b rfl)
      rw [← hn, List.length_append, List.length_cons]
      omega
    · exact last s hmem

/-- **More pieces mean a separator and more text.** -/
theorem splitAt_eq_append_iff {a b : List Char} {more : List (List Char)} (hm : more ≠ []) :
    splitAt sep b = splitAt sep a ++ more ↔ ∃ rest, b = a ++ sep :: rest ∧ more = splitAt sep rest := by
  constructor
  · intro h
    have hb : b = a ++ sep :: joinAt sep more := by
      rw [← joinAt_splitAt sep b, h, joinAt_append hm _ (splitAt_ne_nil sep a), joinAt_splitAt]
    refine ⟨joinAt sep more, hb, ?_⟩
    rw [hb, splitAt_append_sep] at h
    exact (List.append_cancel_left h).symm
  · rintro ⟨rest, rfl, rfl⟩
    exact splitAt_append_sep a rest

/-- There is one more piece than there are separators. -/
theorem length_splitAt (sep : Char) (s : List Char) : (splitAt sep s).length = s.count sep + 1 := by
  induction s with
  | nil => rfl
  | cons c r ih =>
    simp only [splitAt]
    split
    · rename_i h; simp [h, ih]
    · rename_i h
      cases hr : splitAt sep r with
      | nil => exact absurd hr (splitAt_ne_nil sep r)
      | cons piece rest => rw [hr] at ih; simpa [h] using ih

/-- The first piece ends at the first separator. -/
theorem head?_splitAt (s : List Char) : (splitAt sep s).head? = some (s.takeWhile (· != sep)) := by
  induction s with
  | nil => rfl
  | cons c r ih =>
    simp only [splitAt]
    split
    · rename_i h; simp [h]
    · rename_i h
      cases hr : splitAt sep r with
      | nil => exact absurd hr (splitAt_ne_nil sep r)
      | cons piece rest => rw [hr] at ih; simp_all

end Pieces

/-! ## Distinct texts -/

theorem distinct_concat (parts : List String) (part : String) :
    distinct (parts ++ [part]) = if part ∈ distinct parts then distinct parts else distinct parts ++ [part] := by
  simp [distinct, List.foldl_append]

@[simp] theorem mem_distinct {parts : List String} {part : String} : part ∈ distinct parts ↔ part ∈ parts := by
  induction parts using List.reverseRecOn generalizing part with
  | nil => simp [distinct]
  | append_singleton rest last ih =>
    rw [distinct_concat, List.mem_append, List.mem_singleton]
    split
    · rename_i h
      exact ⟨fun hp => Or.inl (ih.mp hp), fun hp => hp.elim ih.mpr fun he => he ▸ h⟩
    · rw [List.mem_append, List.mem_singleton, ih]

theorem nodup_distinct (parts : List String) : (distinct parts).Nodup := by
  induction parts using List.reverseRecOn with
  | nil => simp [distinct]
  | append_singleton rest last ih =>
    rw [distinct_concat]
    split
    · exact ih
    · rename_i h
      exact List.nodup_append.mpr ⟨ih, by simp, fun a ha b hb hab => h (by simp_all)⟩

/-- **The order of `distinct` is that of first occurrence.** -/
theorem pairwise_distinct (parts : List String) :
    (distinct parts).Pairwise fun a b => parts.idxOf a < parts.idxOf b := by
  induction parts using List.reverseRecOn with
  | nil => simp [distinct]
  | append_singleton rest last ih =>
    -- the texts that were there keep their first place
    have hold : (distinct rest).Pairwise fun a b => (rest ++ [last]).idxOf a < (rest ++ [last]).idxOf b := by
      refine ih.imp_of_mem fun ha hb h => ?_
      rwa [List.idxOf_append_of_mem (mem_distinct.mp ha), List.idxOf_append_of_mem (mem_distinct.mp hb)]
    rw [distinct_concat]
    split
    · exact hold
    · rename_i hnew
      rw [mem_distinct] at hnew
      refine List.pairwise_append.mpr ⟨hold, List.pairwise_singleton _ _, fun a ha b hb => ?_⟩
      rw [List.mem_singleton] at hb
      have ha := mem_distinct.mp ha
      rw [hb, List.idxOf_append_of_mem ha, List.idxOf_append_of_notMem hnew]
      exact Nat.lt_of_lt_of_le (List.idxOf_lt_length_of_mem ha) (Nat.le_add_right _ _)

theorem length_distinct (parts : List String) : (distinct parts).length = parts.toFinset.card := by
  rw [← List.toFinset_card_of_nodup (nodup_distinct parts)]
  congr 1
  ext part
  rw [List.mem_toFinset, List.mem_toFinset, mem_distinct]

/-- Selecting texts and leaving out repeated ones may change places. -/
theorem distinct_filter (keeps : String → Bool) (parts : List String) :
    distinct (parts.filter keeps) = (distinct parts).filter keeps := by
  induction parts using List.reverseRecOn with
  | nil => rfl
  | append_singleton rest last ih =>
    by_cases h : keeps last = true
    · have hlast : last ∈ distinct (rest.filter keeps) ↔ last ∈ distinct rest := by
        rw [ih, List.mem_filter, and_iff_left h]
      rw [List.filter_append, List.filter_cons_of_pos h, List.filter_nil, distinct_concat, distinct_concat,
        if_congr hlast ih rfl, ih]
      split
      · rfl
      · rw [List.filter_append, List.filter_cons_of_pos h, List.filter_nil]
    · rw [List.filter_append, List.filter_cons_of_neg h, List.filter_nil, List.append_nil, ih, distinct_concat]
      split
      · rfl
      · rw [List.filter_append, List.filter_cons_of_neg h, List.filter_nil, List.append_nil]

/-! ## Things sorted by a text -/

section SortBy

variable {α β : Type} {key : α → String} {items items' : List α}

/-- Things sorted by a text. -/
def sortBy (key : α → String) (items : List α) : List α := items.mergeSort fun a b => decide (key a ≤ key b)

theorem sortBy_perm (key : α → String) (items : List α) : (sortBy key items).Perm items := List.mergeSort_perm _ _

theorem pairwise_le_sortBy (key : α → String) (items : List α) :
    (sortBy key items).Pairwise fun a b => key a ≤ key b := by
  have hsorted : (sortBy key items).Pairwise fun a b => decide (key a ≤ key b) = true :=
    List.pairwise_mergeSort (by simpa using fun a b c => le_trans) (by simpa using fun a b => le_total _ _) _
  exact hsorted.imp of_decide_eq_true

/-- Of things with different texts each is sorted below those after it. -/
theorem pairwise_lt_sortBy (hdistinct : (items.map key).Nodup) :
    (sortBy key items).Pairwise fun a b => key a < key b := by
  have hnodup : (sortBy key items).Pairwise fun a b => key a ≠ key b :=
    List.pairwise_map.mp (((sortBy_perm key items).map key).nodup_iff.mpr hdistinct)
  exact ((pairwise_le_sortBy key items).and hnodup).imp fun h => lt_of_le_of_ne h.1 h.2

/-- Things with different texts are sorted in one way. -/
theorem sortBy_eq_of_perm (hdistinct : (items.map key).Nodup) (h : items.Perm items') :
    sortBy key items = sortBy key items' := by
  have hperm : (sortBy key items).Perm (sortBy key items') :=
    (sortBy_perm key items).trans (h.trans (sortBy_perm key items').symm)
  refine hperm.eq_of_pairwise ?_ (pairwise_lt_sortBy hdistinct)
    (pairwise_lt_sortBy ((h.map key).nodup_iff.mp hdistinct))
  intro a b _ _ hab hba
  exact absurd (hab.trans hba) (lt_irrefl _)

theorem map_sortBy (key : α → String) (f : β → α) (items : List β) :
    (sortBy (key ∘ f) items).map f = sortBy key (items.map f) :=
  List.map_mergeSort fun _ _ _ _ => rfl

end SortBy

/-! ## Sorted texts -/

theorem pairwise_le_sort (parts : List String) : (sort parts).Pairwise (· ≤ ·) := pairwise_le_sortBy id parts

/-- Of different texts each is sorted below those after it. -/
theorem pairwise_sort {parts : List String} (h : parts.Nodup) : (sort parts).Pairwise (· < ·) :=
  pairwise_lt_sortBy ((List.map_id parts).symm ▸ h)

/-- There is one way to sort texts. -/
theorem eq_sort {sorted parts : List String} (hperm : sorted.Perm parts) (hsorted : sorted.Pairwise (· ≤ ·)) :
    sorted = sort parts :=
  (hperm.trans (List.mergeSort_perm _ _).symm).eq_of_pairwise (fun _ _ _ _ => le_antisymm) hsorted
    (pairwise_le_sort parts)

theorem sort_eq_of_perm {parts parts' : List String} (h : parts.Perm parts') : sort parts = sort parts' :=
  eq_sort ((List.mergeSort_perm _ _).trans h) (pairwise_le_sort parts)

theorem filter_sort (keeps : String → Bool) (parts : List String) :
    (sort parts).filter keeps = sort (parts.filter keeps) :=
  eq_sort ((List.mergeSort_perm _ _).filter keeps) ((pairwise_le_sort parts).filter keeps)

/-! ## Joined texts -/

theorem join_cons_cons (sep first next : String) (more : List String) :
    join sep (first :: next :: more) = first ++ sep ++ join sep (next :: more) := by
  simp only [join, String.intercalate_cons_cons]

/-- Two lists of texts, joined with a separator between them. -/
theorem join_append {a b : List String} (sep : String) (ha : a ≠ []) (hb : b ≠ []) :
    join sep (a ++ b) = join sep a ++ sep ++ join sep b := by
  induction a with
  | nil => exact absurd rfl ha
  | cons first more ih =>
    cases more with
    | nil =>
      obtain ⟨next, rest, rfl⟩ := List.exists_cons_of_ne_nil hb
      rw [List.singleton_append, join_cons_cons]
      simp [join]
    | cons next rest =>
      rw [List.cons_append, List.cons_append, join_cons_cons, join_cons_cons]
      rw [← List.cons_append, ih (by simp)]
      simp only [String.append_assoc]

/-- Texts that are joined behind a separator have one before each of them. -/
theorem append_join_cons (sep first : String) (more : List String) :
    sep ++ join sep (first :: more) = String.join ((first :: more).map (sep ++ ·)) := by
  induction more generalizing first with
  | nil => simp [join]
  | cons next rest ih =>
    rw [join, String.intercalate_cons_cons, List.map_cons, String.join_cons, ← ih]
    simp only [join, String.append_assoc]

end LayerLint.Text
