import LayerLint.Settings.Document
import LayerLint.Proofs.Result
import LayerLint.Proofs.Yaml.Writable

/-!
# What the sections of a configuration may hold

A `Schema` says which settings a section has and of which kind each is, and `Schema.Fits` what may stand there.

Whether overrides fit does not depend on what they are laid over: overrides that fit over one map fit over every other
one that fits by itself (`Schema.fits_overlay`). For their values stand in both maps (`Schema.LaidOver`), except the
maps among them, which are laid over in turn.
-/

namespace LayerLint.Settings

open Yaml Result

/-! ## Kinds of settings -/

/-- The kinds of settings. -/
inductive Kind where
  /-- Anything that has a text. -/
  | shown
  | truth
  | text
  | texts
  | number
  /-- A list of texts or nothing. -/
  | paths
  /-- The name of a mode for shared imports, perhaps empty. -/
  | sharedMode
  /-- The name of a place of tests, perhaps empty. -/
  | testLocation

/-- The value is of the kind. -/
def Kind.accepts : Kind → Value Unit → Bool
  | .shown, value => value.isWritable
  | .truth, .scalar _ (.bool _) => true
  | .text, value => (Section.asText? value).isSome
  | .texts, value => (Section.asTexts? value).isSome
  | .number, .scalar _ (.float _) => true
  | .number, .scalar _ (.strayNan _) => true
  | .number, .scalar _ (.int n) => (Binary64.ofInt? n).isSome
  | .paths, .scalar _ .null => true
  | .paths, value => (Section.asTexts? value).isSome
  | .sharedMode, value =>
    (Section.asText? value).any fun word => word.isEmpty || (SharedImportsMode.ofName? word).isSome
  | .testLocation, value =>
    (Section.asText? value).any fun word => word.isEmpty || (TestLocation.ofName? word).isSome
  | _, _ => false

theorem Kind.not_accepts_map {kind : Kind} (hkind : kind ≠ .shown) {value : Value Unit} (h : value.IsMap) :
    kind.accepts value = false := by
  cases value with
  | map mark entries => cases kind <;> simp_all [accepts, Section.asText?, Section.asTexts?]
  | scalar | list | set | pairs | cycle => cases h

/-! ## Schemas -/

/-- What a section may hold: a setting of a kind, a map with values of a kind, or sections by their names. -/
inductive Schema where
  | setting (kind : Kind)
  | every (kind : Kind)
  | record (fields : List (String × Schema))

/-- The entries of a section, which may be absent or empty. -/
def section? : Option (Value Unit) → Option Section
  | none | some (.scalar _ .null) => some []
  | some (.map _ entries) => some entries
  | some _ => none

namespace Schema

mutual

/-- What stands at a key fits the schema. -/
def Fits : Schema → Option (Value Unit) → Prop
  | .setting kind, found => ∀ v ∈ found, (∀ mark, v ≠ .scalar mark .null) → kind.accepts v = true
  | .every kind, found =>
    ∃ s, section? found = some s ∧ ∀ e ∈ s, e.1.isWritable = true ∧ kind.accepts e.2 = true
  | .record fields, found => ∃ s, section? found = some s ∧ FitsAll fields s

/-- What stands at each of the names fits. -/
def FitsAll : List (String × Schema) → Section → Prop
  | [], _ => True
  | (name, schema) :: rest, s => schema.Fits (lookup? (.text name) s) ∧ FitsAll rest s

end

theorem fits_setting {kind : Kind} {v : Value Unit} (h : kind.accepts v = true) : Fits (.setting kind) (some v) := by
  rintro _ ⟨⟩ -
  exact h

theorem fits_setting_none {kind : Kind} : Fits (.setting kind) none := by
  rintro _ ⟨⟩

theorem fits_every {α : Type} {kind : Kind} {items : List α} {field : α → String × Value Unit}
    (h : ∀ a ∈ items, kind.accepts (field a).2 = true) : Fits (.every kind) (some (.record (items.map field))) := by
  refine ⟨_, rfl, fun e he => ?_⟩
  obtain ⟨f, hf, rfl⟩ := List.mem_map.mp he
  obtain ⟨a, ha, rfl⟩ := List.mem_map.mp hf
  exact ⟨rfl, h a ha⟩

theorem fits_record_iff {fields : List (String × Schema)} {found : Option (Value Unit)} :
    (Schema.record fields).Fits found ↔ ∃ s, section? found = some s ∧ FitsAll fields s := by
  rw [Fits]

theorem fits_record {fields : List (String × Schema)} {entries : List (String × Value Unit)} :
    (Schema.record fields).Fits (some (.record entries)) ↔
      FitsAll fields (entries.map fun entry => (.text entry.1, entry.2)) := by
  simp [fits_record_iff, section?, Value.record]

/-! ## Overrides -/

theorem overlay_of_not_isMap {v : Value Unit} (h : ¬ v.IsMap) (lower : Option (Value Unit)) :
    overlay lower (some v) = some v := by
  cases lower with
  | none => rfl
  | some l => exact congrArg some ((merge_eq_or l v).resolve_right fun hmap => h hmap.2)

/-- The entries that a map is laid over. -/
def entriesBelow : Option (Value Unit) → Section
  | some (.map _ entries) => entries
  | _ => []

theorem section?_eq_entriesBelow {found : Option (Value Unit)} {s : Section} (h : section? found = some s) :
    entriesBelow found = s := by
  unfold section? at h
  split at h <;> simp_all [entriesBelow]

/-- What is known of a map laid over entries. -/
structure LaidOver (low high merged : Section) : Prop where
  lookup : ∀ q, lookup? q merged = overlay (lookup? q low) (lookup? q high)
  upper : ∀ u ∈ high, ∃ e ∈ merged, e.2 = u.2 ∨ e.2.IsMap ∧ u.2.IsMap
  keys : ∀ e ∈ merged, (∃ l ∈ low, e.1 = l.1) ∨ ∃ u ∈ high, e.1 = u.1
  values : ∀ e ∈ merged, (∃ l ∈ low, e.2 = l.2) ∨ (∃ u ∈ high, e.2 = u.2) ∨ e.2.IsMap ∧ ∃ u ∈ high, u.2.IsMap
  writable : Value.areWritableEntries low = true → Value.areWritableEntries high = true →
    Value.areWritableEntries merged = true

theorem laidOver_mergeEntries {high : Section} (h : DistinctKeys high) (low : Section) :
    LaidOver low high (mergeEntries low high) :=
  ⟨fun q => lookup?_mergeEntries h low q, fun _ hu => mem_mergeEntries_of_upper h hu,
    fun _ he => key_of_mem_mergeEntries he, fun _ he => value_of_mem_mergeEntries he, areWritableEntries_mergeEntries⟩

theorem exists_laidOver {high : Section} (h : DistinctKeys high) (lower : Option (Value Unit)) (mark : Unit) :
    ∃ merged, overlay lower (some (.map mark high)) = some (.map () merged) ∧
      LaidOver (entriesBelow lower) high merged := by
  have halone : LaidOver [] high high :=
    ⟨fun q => by cases lookup? q high <;> rfl, fun u hu => ⟨u, hu, .inl rfl⟩, fun e he => .inr ⟨e, he, rfl⟩,
      fun e he => .inr (.inl ⟨e, he, rfl⟩), fun _ hhigh => hhigh⟩
  cases lower with
  | none => exact ⟨high, rfl, halone⟩
  | some v =>
    cases v with
    | map mark' low =>
      exact ⟨mergeEntries low high, by rw [overlay, merge], laidOver_mergeEntries h low⟩
    | scalar | list | set | pairs | cycle => exact ⟨high, by simp [overlay, merge], halone⟩

theorem isMap_overlay {v : Value Unit} (h : v.IsMap) (lower : Option (Value Unit)) :
    ∃ w, overlay lower (some v) = some w ∧ w.IsMap := by
  cases lower with
  | none => exact ⟨v, rfl, h⟩
  | some l =>
    rcases merge_eq_or l v with heq | hmap
    · exact ⟨v, congrArg some heq, h⟩
    · exact ⟨merge l v, rfl, hmap.1⟩

theorem fits_setting_overlay {kind : Kind} {lower lower' upper : Option (Value Unit)}
    (hwritable : ∀ v ∈ upper, v.isWritable = true) (hlower : Fits (.setting kind) lower')
    (h : Fits (.setting kind) (overlay lower upper)) : Fits (.setting kind) (overlay lower' upper) := by
  cases upper with
  | none => exact hlower
  | some u =>
    by_cases hu : u.IsMap
    · -- maps are of one kind only
      obtain ⟨w, hw, hmap⟩ := isMap_overlay hu lower
      have hkind : kind = .shown := by
        by_contra hkind
        have haccepts := h w (by rw [hw]; rfl) fun mark hnull => by simp [hnull, Value.IsMap] at hmap
        simp [Kind.not_accepts_map hkind hmap] at haccepts
      subst hkind
      rintro v hv -
      cases hlower' : lower' with
      | none =>
        obtain rfl : u = v := by simpa [hlower', overlay] using hv
        exact hwritable u rfl
      | some l =>
        obtain rfl : merge l u = v := by simpa [hlower', overlay] using hv
        refine Value.isWritable_merge ?_ (hwritable u rfl)
        by_cases hnull : ∃ mark, l = .scalar mark .null
        · obtain ⟨mark, rfl⟩ := hnull
          rfl
        · exact hlower l hlower' fun mark hl => hnull ⟨mark, hl⟩
    · rw [overlay_of_not_isMap hu] at h ⊢
      exact h

theorem fits_every_overlay {kind : Kind} {lower lower' upper : Option (Value Unit)}
    (hupper : ∀ v ∈ upper, v.Proper) (hwritable : ∀ v ∈ upper, v.isWritable = true)
    (hlower : Fits (.every kind) lower') (h : Fits (.every kind) (overlay lower upper)) :
    Fits (.every kind) (overlay lower' upper) := by
  cases upper with
  | none => exact hlower
  | some u =>
    cases hupper u rfl with
    | other hu =>
      rw [overlay_of_not_isMap hu] at h ⊢
      exact h
    | @map mark high distinct values =>
      obtain ⟨merged, hmerged, hlaid⟩ := exists_laidOver distinct lower mark
      obtain ⟨merged', hmerged', hlaid'⟩ := exists_laidOver distinct lower' mark
      obtain ⟨s, hs, haccepts⟩ := h
      obtain ⟨low, hlow, hlowAccepts⟩ := hlower
      rw [hmerged] at hs
      obtain rfl : merged = s := Option.some.inj hs
      rw [section?_eq_entriesBelow hlow] at hlaid'
      have hhighWritable : Value.areWritableEntries high = true := hwritable _ rfl
      refine ⟨merged', by rw [hmerged']; rfl, fun e he => ?_⟩
      by_cases hkind : kind = .shown
      · rw [hkind] at hlowAccepts ⊢
        exact areWritableEntries_iff.mp (hlaid'.writable (areWritableEntries_iff.mpr hlowAccepts) hhighWritable) e he
      refine ⟨?_, ?_⟩
      · rcases hlaid'.keys e he with ⟨l, hl, heq⟩ | ⟨u, hu, heq⟩
        · exact heq ▸ (hlowAccepts l hl).1
        · exact heq ▸ (areWritableEntries_iff.mp hhighWritable u hu).1
      -- no map is of the kind, so no upper value is a map, and all of them are values of both maps
      have hnone : ∀ {v : Value Unit}, kind.accepts v = true → ¬ v.IsMap := fun hv hmap => by
        simp [Kind.not_accepts_map hkind hmap] at hv
      have hhigh : ∀ u ∈ high, kind.accepts u.2 = true := fun u hu => by
        obtain ⟨e, he, heq | ⟨hmap, -⟩⟩ := hlaid.upper u hu
        · exact heq ▸ (haccepts e he).2
        · exact absurd hmap (hnone (haccepts e he).2)
      rcases hlaid'.values e he with ⟨l, hl, heq⟩ | ⟨u, hu, heq⟩ | ⟨-, u, hu, hmap⟩
      · exact heq ▸ (hlowAccepts l hl).2
      · exact heq ▸ hhigh u hu
      · exact absurd hmap (hnone (hhigh u hu))

mutual

/-- **Overrides that fit over one section fit over every other one that fits by itself**, if they can be written. -/
theorem fits_overlay : ∀ (schema : Schema) {lower lower' upper : Option (Value Unit)}, (∀ v ∈ upper, v.Proper) →
    (∀ v ∈ upper, v.isWritable = true) → schema.Fits lower' → schema.Fits (overlay lower upper) →
      schema.Fits (overlay lower' upper)
  | .setting kind, _, _, _, _, hwritable, hlower, h => fits_setting_overlay hwritable hlower h
  | .every kind, _, _, _, hupper, hwritable, hlower, h => fits_every_overlay hupper hwritable hlower h
  | .record fields, lower, lower', none, hupper, _, hlower, h => hlower
  | .record fields, lower, lower', some u, hupper, hwritable, hlower, h => by
    cases hupper u rfl with
    | other hu =>
      rw [overlay_of_not_isMap hu] at h ⊢
      exact h
    | @map mark high distinct values =>
      obtain ⟨merged, hmerged, hlaid⟩ := exists_laidOver distinct lower mark
      obtain ⟨merged', hmerged', hlaid'⟩ := exists_laidOver distinct lower' mark
      obtain ⟨s, hs, hfits⟩ := h
      obtain ⟨low, hlow, hlowFits⟩ := hlower
      rw [hmerged] at hs
      obtain rfl : merged = s := Option.some.inj hs
      rw [section?_eq_entriesBelow hlow] at hlaid'
      exact ⟨merged', by rw [hmerged']; rfl, fitsAll_overlay fields hlaid hlaid' values
        (fun e he => (areWritableEntries_iff.mp (hwritable _ rfl) e he).2) hlowFits hfits⟩

theorem fitsAll_overlay : ∀ (fields : List (String × Schema)) {low low' high merged merged' : Section},
    LaidOver low high merged → LaidOver low' high merged' → (∀ e ∈ high, e.2.Proper) →
      (∀ e ∈ high, e.2.isWritable = true) → FitsAll fields low' → FitsAll fields merged → FitsAll fields merged'
  | [], _, _, _, _, _, _, _, _, _, _, _ => trivial
  | (name, schema) :: rest, low, low', high, merged, merged', hlaid, hlaid', hproper, hwritable, hlow, h => by
    refine ⟨?_, fitsAll_overlay rest hlaid hlaid' hproper hwritable hlow.2 h.2⟩
    have hupper : ∀ v ∈ lookup? (.text name) high, v.Proper ∧ v.isWritable = true := fun v hv => by
      obtain ⟨e, he, rfl⟩ := mem_of_lookup? hv
      exact ⟨hproper e he, hwritable e he⟩
    have hfits := h.1
    rw [hlaid.lookup] at hfits
    rw [hlaid'.lookup]
    exact fits_overlay schema (fun v hv => (hupper v hv).1) (fun v hv => (hupper v hv).2) hlow.1 hfits

end

end Schema

end LayerLint.Settings
