import LayerLint.Proofs.Yaml.ReadBack.Values

/-!
# Parts of values in which nothing is shared

What a walk over a value meets again stays met again (`again_of_encounter`), and a walk that starts with less meets no
more (`within_encounter`). So the values of a map in which nothing is shared share nothing either
(`isUnshared_of_mem`).
-/

namespace LayerLint.Yaml

namespace Encounters

variable {e less more : Encounters} {mark : Option Nat}

/-- Nothing was met again, and what was met was met with more as well. -/
structure Within (less more : Encounters) : Prop where
  again : less.again = []
  met : less.met ⊆ more.met

theorem of_meet (h : (e.meet mark).again = []) : e.again = [] ∧ e.knows mark = false := by
  cases mark with
  | none => exact ⟨h, rfl⟩
  | some m =>
    rw [meet] at h
    by_cases hknown : e.met.contains m = true
    · rw [if_pos hknown] at h
      split at h
      · rename_i hagain
        simp [h] at hagain
      · simp at h
    · rw [if_neg hknown] at h
      exact ⟨h, by simpa [knows] using hknown⟩

/-- Where nothing is met again, a mark is new and so is what is met behind it. -/
theorem of_meet_on (inner : Encounters → Encounters)
    (h : (if e.knows mark then e.meet mark else inner (e.meet mark)).again = []) :
    e.knows mark = false ∧ (inner (e.meet mark)).again = [] := by
  split at h
  · exact absurd (of_meet h).2 (by simp [*])
  · rename_i hnew
    exact ⟨by simpa using hnew, h⟩

theorem Within.knows (h : Within less more) (hmore : more.knows mark = false) : less.knows mark = false := by
  cases mark with
  | none => rfl
  | some m =>
    simp only [Encounters.knows, Option.any_some, List.contains_eq_mem, decide_eq_false_iff_not] at hmore ⊢
    exact fun hmem => hmore (h.met hmem)

theorem Within.meet (h : Within less more) (hmore : (more.meet mark).again = []) :
    Within (less.meet mark) (more.meet mark) := by
  have hless := h.knows (of_meet hmore).2
  have hmore' := (of_meet hmore).2
  cases mark with
  | none => exact h
  | some m =>
    rw [Encounters.knows, Option.any_some] at hless hmore'
    rw [Encounters.meet, Encounters.meet, hless, hmore']
    exact ⟨h.again, List.cons_subset_cons m h.met⟩

end Encounters

open Encounters

mutual

/-- What is met again stays so. -/
theorem again_of_encounter : ∀ (v : Value (Option Nat)) (e : Encounters), (v.encounter e).again = [] → e.again = []
  | .scalar mark s, e, h => by
    rw [Value.encounter] at h
    split at h
    · exact (of_meet h).1
    · exact h
  | .cycle mark _, e, h | .set mark _, e, h => by
    rw [Value.encounter] at h
    exact (of_meet h).1
  | .list mark items, e, h => by
    rw [Value.encounter] at h
    exact (of_meet (again_of_encounterItems items _ (of_meet_on (encounterItems · items) h).2)).1
  | .map mark entries, e, h => by
    rw [Value.encounter] at h
    exact (of_meet (again_of_encounterEntries entries _ (of_meet_on (encounterEntries · entries) h).2)).1
  | .pairs mark items, e, h => by
    rw [Value.encounter] at h
    exact (of_meet (again_of_encounterPairs items _ (of_meet_on (encounterPairs · items) h).2)).1

theorem again_of_encounterItems : ∀ (items : List (Value (Option Nat))) (e : Encounters),
    (encounterItems e items).again = [] → e.again = []
  | [], _, h => h
  | item :: rest, e, h => again_of_encounter item e (again_of_encounterItems rest _ h)

theorem again_of_encounterEntries : ∀ (entries : List (Scalar × Value (Option Nat))) (e : Encounters),
    (encounterEntries e entries).again = [] → e.again = []
  | [], _, h => h
  | (_, value) :: rest, e, h => again_of_encounter value e (again_of_encounterEntries rest _ h)

theorem again_of_encounterPairs : ∀ (items : List (Value (Option Nat) × Value (Option Nat))) (e : Encounters),
    (encounterPairs e items).again = [] → e.again = []
  | [], _, h => h
  | (a, b) :: rest, e, h => again_of_encounter a e (again_of_encounter b _ (again_of_encounterPairs rest _ h))

end

mutual

/-- Where nothing is met again after more, nothing is after less. -/
theorem within_encounter : ∀ (v : Value (Option Nat)) {less more : Encounters}, Within less more →
    (v.encounter more).again = [] → Within (v.encounter less) (v.encounter more)
  | .scalar mark s, _, _, h, hmore => by
    rw [Value.encounter] at hmore ⊢
    rw [Value.encounter]
    by_cases hnameable : s.isNameable = true
    · rw [if_pos hnameable] at hmore
      rw [if_pos hnameable, if_pos hnameable]
      exact h.meet hmore
    · rw [if_neg hnameable, if_neg hnameable]
      exact h
  | .cycle mark _, _, _, h, hmore | .set mark _, _, _, h, hmore => by
    rw [Value.encounter] at hmore ⊢
    rw [Value.encounter]
    exact h.meet hmore
  | .list mark items, less, more, h, hmore => by
    rw [Value.encounter] at hmore ⊢
    rw [Value.encounter]
    obtain ⟨hnew, hmore⟩ := of_meet_on (encounterItems · items) hmore
    rw [hnew, h.knows hnew]
    exact within_encounterItems items (h.meet (again_of_encounterItems items _ hmore)) hmore
  | .map mark entries, less, more, h, hmore => by
    rw [Value.encounter] at hmore ⊢
    rw [Value.encounter]
    obtain ⟨hnew, hmore⟩ := of_meet_on (encounterEntries · entries) hmore
    rw [hnew, h.knows hnew]
    exact within_encounterEntries entries (h.meet (again_of_encounterEntries entries _ hmore)) hmore
  | .pairs mark items, less, more, h, hmore => by
    rw [Value.encounter] at hmore ⊢
    rw [Value.encounter]
    obtain ⟨hnew, hmore⟩ := of_meet_on (encounterPairs · items) hmore
    rw [hnew, h.knows hnew]
    exact within_encounterPairs items (h.meet (again_of_encounterPairs items _ hmore)) hmore

theorem within_encounterItems : ∀ (items : List (Value (Option Nat))) {less more : Encounters}, Within less more →
    (encounterItems more items).again = [] → Within (encounterItems less items) (encounterItems more items)
  | [], _, _, h, _ => h
  | item :: rest, _, _, h, hmore =>
    within_encounterItems rest (within_encounter item h (again_of_encounterItems rest _ hmore)) hmore

theorem within_encounterEntries : ∀ (entries : List (Scalar × Value (Option Nat))) {less more : Encounters},
    Within less more → (encounterEntries more entries).again = [] →
      Within (encounterEntries less entries) (encounterEntries more entries)
  | [], _, _, h, _ => h
  | (_, value) :: rest, _, _, h, hmore =>
    within_encounterEntries rest (within_encounter value h (again_of_encounterEntries rest _ hmore)) hmore

theorem within_encounterPairs : ∀ (items : List (Value (Option Nat) × Value (Option Nat))) {less more : Encounters},
    Within less more → (encounterPairs more items).again = [] →
      Within (encounterPairs less items) (encounterPairs more items)
  | [], _, _, h, _ => h
  | (a, b) :: rest, less, more, h, hmore => by
    have hb := again_of_encounterPairs rest _ hmore
    exact within_encounterPairs rest (within_encounter b (within_encounter a h (again_of_encounter b _ hb)) hb) hmore

end

/-- **The values of a map in which nothing is shared** share nothing either. -/
theorem isUnshared_of_mem {mark : Option Nat} {entries : List (Scalar × Value (Option Nat))}
    (h : (Value.map mark entries).IsUnshared) (entry : Scalar × Value (Option Nat)) (hentry : entry ∈ entries) :
    entry.2.IsUnshared := by
  have hentries : ∀ (entries : List (Scalar × Value (Option Nat))) (e : Encounters),
      (encounterEntries e entries).again = [] → ∀ entry ∈ entries, entry.2.IsUnshared := by
    intro entries
    induction entries with
    | nil => simp
    | cons first rest ih =>
      intro e hagain
      refine List.forall_mem_cons.mpr ⟨?_, ih _ hagain⟩
      have hvalue : (first.2.encounter e).again = [] := again_of_encounterEntries rest _ hagain
      exact (within_encounter first.2 ⟨rfl, List.nil_subset _⟩ hvalue).again
  rw [Value.IsUnshared, Value.encounter] at h
  exact hentries entries _ (of_meet_on (encounterEntries · entries) h).2 entry hentry

end LayerLint.Yaml
