import LayerLint.Proofs.Settings.Alike

/-!
# Sections without settings

`Section.setAt` puts something else at a place of a document, which keys lead to, and `Section.valueAt` is what stands
there. `sectionPlaces` are the places of sections in a document of one layout, and behind `preset` and `overrides` in
the other.

- Whether a section is absent, nothing or an empty map makes no difference where only its settings count
  (`Schema.alikeAll_setAt`).
- Among overrides it makes one, for what stands there is laid over the preset: nothing takes the place of what the
  preset has, and an empty map only that of a value that is no section (`ofEntries_blank`).
-/

namespace LayerLint.Settings

open Yaml Result

/-! ## Places of a document -/

/-- Entries with something else at a key. -/
def Section.set (s : Section) (key : String) : Option (Value Unit) → Section
  | some value => insertEntry (.text key) value s
  | none => s.filter fun e => e.1 ≠ .text key

/-- Entries with something else at a key behind others. Where these lead through no maps nothing changes. -/
def Section.setAt (key : String) (new : Option (Value Unit)) : List String → Section → Section
  | [], s => s.set key new
  | parent :: rest, s =>
    match lookup? (.text parent) s with
    | some (.map mark entries) => s.set parent (some (.map mark (setAt key new rest entries)))
    | _ => s

/-- What stands at a key behind others, as far as these lead through maps. -/
def Section.valueAt (key : String) : List String → Section → Option (Value Unit)
  | [], s => lookup? (.text key) s
  | parent :: rest, s => valueAt key rest (Schema.entriesBelow (lookup? (.text parent) s))

/-- The keys lead through maps. -/
def Section.HasPlace : List String → Section → Prop
  | [], _ => True
  | parent :: rest, s => ∃ mark entries, lookup? (.text parent) s = some (.map mark entries) ∧ HasPlace rest entries

/-- The places of the sections of a configuration: the keys before them and their own. -/
def sectionPlaces : List (List String × String) :=
  [([], "structure"), ([], "rules"), ([], "error_prompt"), (["structure"], "required_directories"),
    (["rules"], "directories_import"), (["rules"], "shared_external_imports"), (["rules"], "test_files"),
    (["rules"], "test_coverage"), (["rules", "test_coverage"], "package_thresholds")]

variable {s : Section} {key parent : String} {new : Option (Value Unit)} {rest parents : List String}

theorem lookup?_set (k : String) :
    lookup? (.text k) (s.set key new) = if k = key then new else lookup? (.text k) s := by
  cases new with
  | some v =>
    rw [Section.set, lookup?_insertEntry]
    simp [eq_comm]
  | none =>
    rw [Section.set]
    induction s with
    | nil => simp [lookup?]
    | cons e rest ih =>
      obtain ⟨name, v⟩ := e
      by_cases hname : name = .text key
      · subst hname
        rw [List.filter_cons_of_neg (by simp), ih, lookup?_cons]
        by_cases hk : k = key
        · rw [if_pos hk, if_pos hk]
        · rw [if_neg hk, if_neg hk, if_neg (by simpa [eq_comm] using hk)]
      · rw [List.filter_cons_of_pos (by simpa using hname), lookup?_cons, lookup?_cons, ih]
        by_cases hk : k = key
        · simp [hk, hname]
        · simp [hk]

theorem setAt_cons_of_map {mark : Unit} {entries : Section}
    (h : lookup? (.text parent) s = some (.map mark entries)) :
    Section.setAt key new (parent :: rest) s =
      s.set parent (some (.map mark (Section.setAt key new rest entries))) := by
  rw [Section.setAt, h]

theorem setAt_cons_of_not_map (h : ∀ mark entries, lookup? (.text parent) s ≠ some (.map mark entries)) :
    Section.setAt key new (parent :: rest) s = s := by
  rw [Section.setAt]
  split
  · exact absurd ‹_› (h _ _)
  · rfl

/-- A value is a map, or entries below it there are none. -/
theorem isMap_or_entriesBelow (found : Option (Value Unit)) :
    (∃ mark entries, found = some (.map mark entries)) ∨
      (∀ mark entries, found ≠ some (.map mark entries)) ∧ Schema.entriesBelow found = [] := by
  rcases found with _ | v
  · exact .inr ⟨by simp, rfl⟩
  · cases v with
    | map mark entries => exact .inl ⟨mark, entries, rfl⟩
    | scalar | list | set | pairs | cycle => exact .inr ⟨by simp, rfl⟩

/-- Other keys than the first of a place keep what stands at them. -/
theorem lookup?_setAt_of_ne {k : String} (h : k ≠ parents.headD key) :
    lookup? (.text k) (Section.setAt key new parents s) = lookup? (.text k) s := by
  cases parents with
  | nil => exact (lookup?_set k).trans (if_neg h)
  | cons parent rest =>
    rcases isMap_or_entriesBelow (lookup? (.text parent) s) with ⟨mark, entries, hmap⟩ | ⟨hmap, -⟩
    · rw [setAt_cons_of_map hmap]
      exact (lookup?_set k).trans (if_neg h)
    · rw [setAt_cons_of_not_map hmap]

theorem setAt_none_nil : Section.setAt key none parents [] = [] := by
  cases parents <;> rfl

/-- Taking something away takes it away from the entries below. -/
theorem entriesBelow_setAt_none :
    Schema.entriesBelow (lookup? (.text parent) (Section.setAt key none (parent :: rest) s)) =
      Section.setAt key none rest (Schema.entriesBelow (lookup? (.text parent) s)) := by
  rcases isMap_or_entriesBelow (lookup? (.text parent) s) with ⟨mark, entries, hmap⟩ | ⟨hmap, hnil⟩
  · rw [setAt_cons_of_map hmap, lookup?_set, if_pos rfl, hmap]
    rfl
  · rw [setAt_cons_of_not_map hmap, hnil, setAt_none_nil]

theorem distinctKeys_set (h : DistinctKeys s) : DistinctKeys (s.set key new) := by
  cases new with
  | some v => exact distinctKeys_insertEntry h
  | none => exact h.filter _

theorem distinctKeys_setAt (h : DistinctKeys s) : DistinctKeys (Section.setAt key new parents s) := by
  cases parents with
  | nil => exact distinctKeys_set h
  | cons parent rest =>
    rw [Section.setAt]
    split
    · exact distinctKeys_set h
    · exact h

/-- The entries of a section that is laid over what stands below it. -/
def sectionOver? (lower upper : Option (Value Unit)) : Option Section := section? (overlay lower upper)

/-! ## Sections of a schema -/

namespace Schema

/-- The schema is that of a map. -/
def isSection : Schema → Bool
  | .setting _ => false
  | .every _ | .record _ => true

/-- What the fields have at a place is a section. -/
def hasSection (key : String) : List String → List (String × Schema) → Bool
  | [], fields => fields.all fun (name, schema) => name != key || schema.isSection
  | parent :: rest, fields => fields.all fun (name, schema) => name != parent ||
      match schema with
      | .record inner => hasSection key rest inner
      | _ => false

theorem hasSection_of_mem_sectionPlaces :
    ∀ place ∈ sectionPlaces, hasSection place.2 place.1 sectionsSchema = true := by
  decide

variable {fields : List (String × Schema)}

theorem isSection_of_hasSection (h : hasSection key [] fields = true) {f : String × Schema} (hf : f ∈ fields)
    (hkey : f.1 = key) : f.2.isSection = true := by
  simpa [hkey] using List.all_eq_true.mp h f hf

theorem record_of_hasSection (h : hasSection key (parent :: rest) fields = true) {f : String × Schema}
    (hf : f ∈ fields) (hparent : f.1 = parent) : ∃ inner, f.2 = .record inner ∧ hasSection key rest inner = true := by
  obtain ⟨name, schema⟩ := f
  have := List.all_eq_true.mp h _ hf
  cases schema <;> simp_all

/-- Of a section only its entries count. -/
theorem alike_of_section?_eq {schema : Schema} (hsection : schema.isSection = true) {x y : Option (Value Unit)}
    (h : section? x = section? y) : schema.Alike x y := by
  cases schema with
  | setting kind => cases hsection
  | every kind => exact alike_every.mpr h
  | record fields =>
    rw [Alike, h]
    cases section? y with
    | none => trivial
    | some t => exact AlikeAll.refl fields t

variable {a b : Option (Value Unit)} {low high : Section}

/-- **Sections with the same entries are alike wherever they stand.** -/
theorem alikeAll_setAt (hab : section? a = section? b) (h : hasSection key parents fields = true) (s : Section) :
    AlikeAll fields (Section.setAt key a parents s) (Section.setAt key b parents s) := by
  induction parents generalizing fields s with
  | nil =>
    refine alikeAll_of_forall fun f hf => ?_
    rw [Section.setAt, Section.setAt, lookup?_set, lookup?_set]
    split
    · exact alike_of_section?_eq (isSection_of_hasSection h hf ‹_›) hab
    · exact Alike.refl f.2 _
  | cons parent rest ih =>
    rcases isMap_or_entriesBelow (lookup? (.text parent) s) with ⟨mark, entries, hmap⟩ | ⟨hmap, -⟩
    · refine alikeAll_of_forall fun f hf => ?_
      rw [setAt_cons_of_map hmap, setAt_cons_of_map hmap, lookup?_set, lookup?_set]
      split
      · obtain ⟨inner, hinner, hsection⟩ := record_of_hasSection h hf ‹_›
        rw [hinner]
        exact alike_record rfl rfl (ih hsection entries)
      · exact Alike.refl f.2 _
    · rw [setAt_cons_of_not_map hmap, setAt_cons_of_not_map hmap]
      exact AlikeAll.refl fields s

/-- What stands at a key of maps laid over each other after changes at one place. -/
theorem overlay_setAt_map {low' : Section} (hlow : entriesBelow (lookup? (.text parent) low) = low')
    {mark : Unit} {entries : Section} (hmap : lookup? (.text parent) high = some (.map mark entries))
    (hentries : DistinctKeys entries) (new : Option (Value Unit)) :
    overlay (lookup? (.text parent) low) (lookup? (.text parent) (Section.setAt key new (parent :: rest) high)) =
      some (.map () (mergeEntries low' (Section.setAt key new rest entries))) := by
  rw [setAt_cons_of_map hmap, lookup?_set, if_pos rfl, overlay_map (distinctKeys_setAt hentries), hlow]

theorem distinctKeys_of_proper {parent : String} {mark : Unit} {entries : Section}
    (hproper : ∀ e ∈ high, e.2.Proper) (hmap : lookup? (.text parent) high = some (.map mark entries)) :
    DistinctKeys entries ∧ ∀ e ∈ entries, e.2.Proper := by
  obtain ⟨e, he, hvalue⟩ := mem_of_lookup? hmap
  have := hproper e he
  rw [hvalue] at this
  cases this with
  | map distinct values => exact ⟨distinct, values⟩
  | other h => exact absurd trivial h

/-- **Overrides that leave the same entries at a place are alike.** -/
theorem alikeAll_mergeEntries_setAt (h : hasSection key parents fields = true) (hdistinct : DistinctKeys high)
    (hproper : ∀ e ∈ high, e.2.Proper)
    (hab : sectionOver? (Section.valueAt key parents low) a = sectionOver? (Section.valueAt key parents low) b) :
    AlikeAll fields (mergeEntries low (Section.setAt key a parents high))
      (mergeEntries low (Section.setAt key b parents high)) := by
  induction parents generalizing fields low high with
  | nil =>
    refine alikeAll_of_forall fun f hf => ?_
    rw [lookup?_mergeEntries (distinctKeys_setAt hdistinct), lookup?_mergeEntries (distinctKeys_setAt hdistinct),
      Section.setAt, Section.setAt, lookup?_set, lookup?_set]
    split
    · rename_i hkey
      refine alike_of_section?_eq (isSection_of_hasSection h hf hkey) ?_
      rwa [hkey]
    · exact Alike.refl f.2 _
  | cons parent rest ih =>
    rcases isMap_or_entriesBelow (lookup? (.text parent) high) with ⟨mark, entries, hmap⟩ | ⟨hmap, -⟩
    · obtain ⟨hentries, hvalues⟩ := distinctKeys_of_proper hproper hmap
      refine alikeAll_of_forall fun f hf => ?_
      rw [lookup?_mergeEntries (distinctKeys_setAt hdistinct), lookup?_mergeEntries (distinctKeys_setAt hdistinct)]
      by_cases hkey : f.1 = parent
      · obtain ⟨inner, hinner, hsection⟩ := record_of_hasSection h hf hkey
        rw [hkey, hinner, overlay_setAt_map rfl hmap hentries, overlay_setAt_map rfl hmap hentries]
        exact alike_record rfl rfl (ih hsection hentries hvalues hab)
      · rw [lookup?_setAt_of_ne hkey, lookup?_setAt_of_ne hkey]
        exact Alike.refl f.2 _
    · rw [setAt_cons_of_not_map hmap, setAt_cons_of_not_map hmap]
      exact AlikeAll.refl fields _

/-- **A section that is nothing among overrides is like one that is absent from both maps.** -/
theorem alikeAll_mergeEntries_null (h : hasSection key parents fields = true) (hdistinct : DistinctKeys high)
    (hproper : ∀ e ∈ high, e.2.Proper) (hplace : Section.HasPlace parents high) (low : Section) :
    AlikeAll fields (mergeEntries low (Section.setAt key (some (.scalar () .null)) parents high))
      (mergeEntries (Section.setAt key none parents low) (Section.setAt key none parents high)) := by
  induction parents generalizing fields low high with
  | nil =>
    refine alikeAll_of_forall fun f hf => ?_
    rw [lookup?_mergeEntries (distinctKeys_setAt hdistinct), lookup?_mergeEntries (distinctKeys_setAt hdistinct)]
    simp only [Section.setAt, lookup?_set]
    split
    · refine alike_of_section?_eq (isSection_of_hasSection h hf ‹_›) ?_
      rw [overlay_of_not_isMap (v := .scalar () .null) id]
      rfl
    · exact Alike.refl f.2 _
  | cons parent rest ih =>
    obtain ⟨mark, entries, hmap, hrest⟩ := hplace
    obtain ⟨hentries, hvalues⟩ := distinctKeys_of_proper hproper hmap
    refine alikeAll_of_forall fun f hf => ?_
    rw [lookup?_mergeEntries (distinctKeys_setAt hdistinct), lookup?_mergeEntries (distinctKeys_setAt hdistinct)]
    by_cases hkey : f.1 = parent
    · obtain ⟨inner, hinner, hsection⟩ := record_of_hasSection h hf hkey
      rw [hkey, hinner, overlay_setAt_map rfl hmap hentries, overlay_setAt_map entriesBelow_setAt_none hmap hentries]
      exact alike_record rfl rfl (ih hsection hentries hvalues hrest _)
    · rw [lookup?_setAt_of_ne hkey, lookup?_setAt_of_ne hkey, lookup?_setAt_of_ne hkey]
      exact Alike.refl f.2 _

theorem alikeAll_congr_right {s t t' : Section}
    (h : ∀ f ∈ fields, lookup? (.text f.1) t = lookup? (.text f.1) t') (halike : AlikeAll fields s t) :
    AlikeAll fields s t' := by
  induction fields with
  | nil => trivial
  | cons f rest ih => exact ⟨h f (.head _) ▸ halike.1, ih (fun g hg => h g (.tail _ hg)) halike.2⟩

theorem sectionNames_of_mem_sectionsSchema : ∀ f ∈ sectionsSchema, f.1 ∈ sectionNames := by
  simp [sectionsSchema, sectionNames]

theorem alikeAll_sectionsOf {s t : Section} (h : AlikeAll sectionsSchema s t) :
    AlikeAll sectionsSchema (sectionsOf s) (sectionsOf t) := by
  simp only [sectionsSchema, AlikeAll] at h ⊢
  rwa [lookup?_sectionsOf (by decide), lookup?_sectionsOf (by decide), lookup?_sectionsOf (by decide),
    lookup?_sectionsOf (by decide), lookup?_sectionsOf (by decide), lookup?_sectionsOf (by decide)]

end Schema

/-! ## The sections in force -/

variable {data data' : Section} {declared : Except ModulePath.Error String} {place : String}

theorem sectionNames_of_mem_sectionPlaces : ∀ place ∈ sectionPlaces, place.1.headD place.2 ∈ sectionNames := by
  decide

theorem matches_refl {α : Type} (x : Except SettingsError α) : Matches Eq x x := by
  cases x with
  | ok a => exact .ok rfl
  | error e => exact .error e

/-- The name of a preset is read of what stands at its key. -/
theorem presetName_congr {s t : Section} (h : lookup? (.text "name") s = lookup? (.text "name") t) :
    presetName s = presetName t := by
  rw [presetName, presetName, h]

/-- Changes of the preset and the overrides that keep the name and the unknown sections and lead to sections that
are alike. -/
theorem matches_effective {P O : Section → Section → Prop}
    (hlayout : (lookup? (.text "preset") data).isSome = true)
    (hlayout' : (lookup? (.text "preset") data').isSome = true)
    (hpreset : Matches P (data.below place "preset") (data'.below place "preset"))
    (hoverrides : Matches O (data.below place "overrides") (data'.below place "overrides"))
    (hname : ∀ p p', P p p' → lookup? (.text "name") p = lookup? (.text "name") p')
    (hunknown : ∀ o o', O o o' → unknownKeys o = unknownKeys o')
    (hbody : ∀ p p' o o', P p p' → O o o' → Schema.AlikeAll sectionsSchema (mergeEntries (sectionsOf p) o)
      (mergeEntries (sectionsOf p') o')) :
    Matches (fun a b => Schema.AlikeAll sectionsSchema a.1 b.1 ∧ a.2 = b.2) (effective data place)
      (effective data' place) := by
  have hsome : ∀ {s : Section}, (lookup? (.text "preset") s).isSome = true →
      ¬ (lookup? (.text "preset") s).isNone = true := by simp [Option.isSome_iff_ne_none]
  rw [effective, effective, if_neg (hsome hlayout), if_neg (hsome hlayout')]
  refine hpreset.bind fun p p' hp => hoverrides.bind fun o o' ho => ?_
  rw [hunknown o o' ho, presetName_congr (hname p p' hp)]
  split
  · exact (matches_refl (presetName p')).bind fun _ _ hsame => .ok ⟨hbody p p' o o' hp ho, hsame⟩
  · exact .error _

theorem effective_of_none (h : lookup? (.text "preset") data = none) :
    effective data place = .ok (sectionsOf data, none) := by
  rw [effective, h]
  rfl

/-- Without a preset the sections in force are those of the document. -/
theorem matches_effective_of_none (h : lookup? (.text "preset") data = none)
    (h' : lookup? (.text "preset") data' = none) (halike : Schema.AlikeAll sectionsSchema data data') :
    Matches (fun a b => Schema.AlikeAll sectionsSchema a.1 b.1 ∧ a.2 = b.2) (effective data place)
      (effective data' place) := by
  rw [effective_of_none h, effective_of_none h']
  exact .ok ⟨Schema.alikeAll_sectionsOf halike, rfl⟩

/-! ## Changes at a place -/

section Changes

variable {site : List String × String} {a b : Option (Value Unit)}

/-- The first key of a place of a section is none of the others that are read. -/
theorem ne_of_mem_sectionPlaces (hsite : site ∈ sectionPlaces) {k : String} (hk : k ∉ sectionNames) :
    k ≠ site.1.headD site.2 :=
  fun heq => hk (heq ▸ sectionNames_of_mem_sectionPlaces site hsite)

/-- What is read beside the sections stands at other keys. -/
theorem lookup?_setAt_top (data : Section) (parents : List String) (key : String) (new : Option (Value Unit))
    (h : parents.headD key ∉ ["module", "scan_paths", "ignore_paths"]) :
    ∀ k ∈ ["module", "scan_paths", "ignore_paths"],
      lookup? (.text k) (Section.setAt key new parents data) = lookup? (.text k) data :=
  fun _ hk => lookup?_setAt_of_ne fun heq => h (heq ▸ hk)

/-- What stands at a place depends on nothing but what stands at its first key. -/
theorem lookup?_setAt_congr {k : String} {t : Section} (h : lookup? (.text k) s = lookup? (.text k) t) :
    lookup? (.text k) (Section.setAt key new parents s) = lookup? (.text k) (Section.setAt key new parents t) := by
  by_cases hk : k = parents.headD key
  · cases parents with
    | nil => exact (lookup?_set k).trans ((if_pos hk).trans ((lookup?_set k).trans (if_pos hk)).symm)
    | cons parent rest =>
      obtain rfl : k = parent := hk
      rcases isMap_or_entriesBelow (lookup? (.text k) s) with ⟨mark, entries, hmap⟩ | ⟨hmap, -⟩
      · rw [setAt_cons_of_map hmap, setAt_cons_of_map (h ▸ hmap), lookup?_set, lookup?_set, if_pos rfl, if_pos rfl]
      · rw [setAt_cons_of_not_map hmap, setAt_cons_of_not_map (h ▸ hmap), h]
  · rw [lookup?_setAt_of_ne hk, lookup?_setAt_of_ne hk, h]

theorem valueAt_sectionsOf (h : parents.headD key ∈ sectionNames) :
    Section.valueAt key parents (sectionsOf s) = Section.valueAt key parents s := by
  cases parents with
  | nil => exact lookup?_sectionsOf h
  | cons parent rest =>
    have hparent : parent ∈ sectionNames := h
    rw [Section.valueAt, Section.valueAt, lookup?_sectionsOf hparent]

theorem unknownKeys_cons (e : Scalar × Value Unit) (s : Section) : unknownKeys (e :: s) =
    if sectionNames.any fun name => e.1 == .text name then unknownKeys s else e.1 :: unknownKeys s := by
  rw [unknownKeys, unknownKeys, List.map_cons, List.filter_cons]
  cases sectionNames.any fun name => e.1 == .text name <;> rfl

theorem unknownKeys_set (h : key ∈ sectionNames) : unknownKeys (s.set key new) = unknownKeys s := by
  have hknown : (sectionNames.any fun name => Scalar.text key == .text name) = true :=
    List.any_eq_true.mpr ⟨key, h, by simp⟩
  induction s with
  | nil =>
    cases new with
    | none => rfl
    | some v => rw [Section.set, insertEntry, unknownKeys_cons, if_pos hknown]
  | cons e rest ih =>
    obtain ⟨name, w⟩ := e
    cases new with
    | none =>
      rw [Section.set] at ih ⊢
      by_cases hname : name = .text key
      · rw [List.filter_cons_of_neg (by simpa using hname), ih, unknownKeys_cons, hname, if_pos hknown]
      · rw [List.filter_cons_of_pos (by simpa using hname), unknownKeys_cons, unknownKeys_cons, ih]
    | some v =>
      rw [Section.set] at ih ⊢
      rw [insertEntry]
      split
      · rw [unknownKeys_cons, unknownKeys_cons]
      · rw [unknownKeys_cons, unknownKeys_cons, ih]

theorem unknownKeys_setAt (h : parents.headD key ∈ sectionNames) :
    unknownKeys (Section.setAt key new parents s) = unknownKeys s := by
  cases parents with
  | nil => exact unknownKeys_set h
  | cons parent rest =>
    rw [Section.setAt]
    split
    · exact unknownKeys_set h
    · rfl

theorem isSome_lookup?_setAt {top : String} :
    (lookup? (.text top) (Section.setAt key new (top :: parents) data)).isSome =
      (lookup? (.text top) data).isSome := by
  rcases isMap_or_entriesBelow (lookup? (.text top) data) with ⟨mark, entries, hmap⟩ | ⟨hmap, -⟩
  · rw [setAt_cons_of_map hmap, lookup?_set, if_pos rfl, hmap]
    rfl
  · rw [setAt_cons_of_not_map hmap]

/-- What stands behind a key after a change there. -/
theorem below_setAt {top : String} {mark : Unit} {entries : Section}
    (hmap : lookup? (.text top) data = some (.map mark entries)) :
    (Section.setAt key new (top :: parents) data).below place top = .ok (Section.setAt key new parents entries) := by
  rw [below_eq, setAt_cons_of_map hmap, lookup?_set, if_pos rfl]
  rfl

theorem below_setAt_of_ne {k : String} (h : k ≠ parents.headD key) :
    (Section.setAt key new parents data).below place k = data.below place k :=
  below_congr (congrArg _ (lookup?_setAt_of_ne h))

/-- Taking something away behind a key takes it away from what is read there. -/
theorem matches_below_setAt_none {top : String} :
    Matches (fun p p' => p' = Section.setAt key none parents p)
      (data.below place top) ((Section.setAt key none (top :: parents) data).below place top) := by
  rcases isMap_or_entriesBelow (lookup? (.text top) data) with ⟨mark, entries, hmap⟩ | ⟨hmap, hnil⟩
  · rw [below_setAt hmap, below_eq, hmap]
    exact .ok rfl
  · rw [setAt_cons_of_not_map hmap, below_eq]
    cases hsection : section? (lookup? (.text top) data) with
    | none => exact .error _
    | some entries =>
      rw [← Schema.section?_eq_entriesBelow hsection, hnil]
      exact .ok setAt_none_nil.symm

/-- With a preset the settings are read off what stands behind `preset` and `overrides`. -/
theorem ofEntries_congr_of_below (hlayout : (lookup? (.text "preset") data).isSome = true)
    (hlayout' : (lookup? (.text "preset") data').isSome = true)
    (hpreset : data.below place "preset" = data'.below place "preset")
    (hoverrides : data.below place "overrides" = data'.below place "overrides")
    (htop : ∀ k ∈ ["module", "scan_paths", "ignore_paths"], lookup? (.text k) data = lookup? (.text k) data') :
    ofEntries data declared place = ofEntries data' declared place :=
  ofEntries_congr (matches_effective (P := Eq) (O := Eq) hlayout hlayout' (hpreset ▸ matches_refl _)
    (hoverrides ▸ matches_refl _) (fun _ _ h => h ▸ rfl) (fun _ _ h => h ▸ rfl)
    fun _ _ _ _ hp ho => hp ▸ ho ▸ Schema.AlikeAll.refl _ _) htop

theorem not_mem_top_of_mem_sectionPlaces (hsite : site ∈ sectionPlaces) :
    site.1.headD site.2 ∉ ["module", "scan_paths", "ignore_paths"] :=
  fun hmem => absurd (sectionNames_of_mem_sectionPlaces site hsite) (by
    simp only [List.mem_cons, List.not_mem_nil, or_false] at hmem
    rcases hmem with h | h | h <;> rw [h] <;> decide)

/-- With a preset the sections beside it are not read. -/
theorem ofEntries_setAt_hidden (hsite : site ∈ sectionPlaces)
    (hlayout : (lookup? (.text "preset") data).isSome = true) :
    ofEntries (Section.setAt site.2 new site.1 data) declared place = ofEntries data declared place :=
  have hpreset := ne_of_mem_sectionPlaces hsite (k := "preset") (by decide)
  ofEntries_congr_of_below (by rwa [lookup?_setAt_of_ne hpreset]) hlayout (below_setAt_of_ne hpreset)
    (below_setAt_of_ne (ne_of_mem_sectionPlaces hsite (by decide)))
    (lookup?_setAt_top data site.1 site.2 new (not_mem_top_of_mem_sectionPlaces hsite))

/-- A section of the layout without preset. -/
theorem ofEntries_setAt_section (hsite : site ∈ sectionPlaces) (hab : section? a = section? b) :
    ofEntries (Section.setAt site.2 a site.1 data) declared place =
      ofEntries (Section.setAt site.2 b site.1 data) declared place := by
  cases hlayout : lookup? (.text "preset") data with
  | none =>
    have hpreset : ∀ new, lookup? (.text "preset") (Section.setAt site.2 new site.1 data) = none :=
      fun new => (lookup?_setAt_of_ne (ne_of_mem_sectionPlaces hsite (by decide))).trans hlayout
    have htop := fun new => lookup?_setAt_top data site.1 site.2 new (not_mem_top_of_mem_sectionPlaces hsite)
    exact ofEntries_congr (matches_effective_of_none (hpreset a) (hpreset b)
      (Schema.alikeAll_setAt hab (Schema.hasSection_of_mem_sectionPlaces site hsite) data))
      fun k hk => (htop a k hk).trans (htop b k hk).symm
  | some v =>
    have hsome : (lookup? (.text "preset") data).isSome = true := by rw [hlayout]; rfl
    rw [ofEntries_setAt_hidden hsite hsome, ofEntries_setAt_hidden hsite hsome]

/-- A section of the preset. -/
theorem ofEntries_setAt_preset (hsite : site ∈ sectionPlaces) (hab : section? a = section? b)
    (hproper : ∀ v ∈ lookup? (.text "overrides") data, v.Proper) :
    ofEntries (Section.setAt site.2 a ("preset" :: site.1) data) declared place =
      ofEntries (Section.setAt site.2 b ("preset" :: site.1) data) declared place := by
  have htop := fun new => lookup?_setAt_top data ("preset" :: site.1) site.2 new (by simp)
  rcases isMap_or_entriesBelow (lookup? (.text "preset") data) with ⟨mark, fields, hmap⟩ | ⟨hmap, -⟩
  · have hlayout : ∀ new, (lookup? (.text "preset")
        (Section.setAt site.2 new ("preset" :: site.1) data)).isSome = true := fun new => by
      rw [setAt_cons_of_map hmap, lookup?_set, if_pos rfl]
      rfl
    have hname := ne_of_mem_sectionPlaces hsite (k := "name") (by decide)
    refine ofEntries_congr (matches_effective
      (P := fun p p' => p = Section.setAt site.2 a site.1 fields ∧ p' = Section.setAt site.2 b site.1 fields)
      (O := fun o o' => o = o' ∧ DistinctKeys o ∧ ∀ e ∈ o, e.2.Proper) (hlayout a) (hlayout b) ?_ ?_ ?_ ?_ ?_)
      fun k hk => (htop a k hk).trans (htop b k hk).symm
    · rw [below_setAt hmap, below_setAt hmap]
      exact .ok ⟨rfl, rfl⟩
    · rw [below_setAt_of_ne (k := "overrides") (by simp), below_setAt_of_ne (k := "overrides") (by simp)]
      cases hoverrides : data.below place "overrides" with
      | ok o => exact .ok ⟨rfl, proper_of_section? (below_eq_ok_iff.mp hoverrides) hproper⟩
      | error e => exact .error e
    · rintro p p' ⟨rfl, rfl⟩
      rw [lookup?_setAt_of_ne hname, lookup?_setAt_of_ne hname]
    · rintro o o' ⟨rfl, -⟩
      rfl
    · rintro p p' o o' ⟨rfl, rfl⟩ ⟨rfl, hdistinct, hvalues⟩
      exact Schema.alikeAll_mergeEntries _ hdistinct hvalues (Schema.alikeAll_sectionsOf
        (Schema.alikeAll_setAt hab (Schema.hasSection_of_mem_sectionPlaces site hsite) fields))
  · rw [setAt_cons_of_not_map hmap, setAt_cons_of_not_map hmap]

/-- Without a preset the overrides are not read. -/
theorem ofEntries_setAt_overrides_of_none (hlayout : lookup? (.text "preset") data = none) (parents : List String)
    (hkey : parents.headD key = "overrides") :
    ofEntries (Section.setAt key new parents data) declared place = ofEntries data declared place := by
  refine ofEntries_congr (matches_effective_of_none ?_ hlayout ?_)
    (lookup?_setAt_top data parents key new (by rw [hkey]; decide))
  · rw [lookup?_setAt_of_ne (by rw [hkey]; decide), hlayout]
  · refine Schema.alikeAll_of_lookup fun f hf => lookup?_setAt_of_ne fun h => ?_
    have hname := Schema.sectionNames_of_mem_sectionsSchema f hf
    rw [h, hkey] at hname
    exact absurd hname (by decide)

/-- A section of the overrides that leaves the same entries over the preset. -/
theorem ofEntries_setAt_overrides (hsite : site ∈ sectionPlaces)
    (hab : sectionOver? (Section.valueAt site.2 ("preset" :: site.1) data) a =
      sectionOver? (Section.valueAt site.2 ("preset" :: site.1) data) b)
    (hproper : ∀ v ∈ lookup? (.text "overrides") data, v.Proper) :
    ofEntries (Section.setAt site.2 a ("overrides" :: site.1) data) declared place =
      ofEntries (Section.setAt site.2 b ("overrides" :: site.1) data) declared place := by
  cases hlayout : lookup? (.text "preset") data with
  | none => rw [ofEntries_setAt_overrides_of_none hlayout _ rfl, ofEntries_setAt_overrides_of_none hlayout _ rfl]
  | some v =>
    have htop := fun new => lookup?_setAt_top data ("overrides" :: site.1) site.2 new (by simp)
    have hpreset : ∀ new, lookup? (.text "preset") (Section.setAt site.2 new ("overrides" :: site.1) data) =
        lookup? (.text "preset") data := fun new => lookup?_setAt_of_ne (by simp)
    have hname := sectionNames_of_mem_sectionPlaces site hsite
    rcases isMap_or_entriesBelow (lookup? (.text "overrides") data) with ⟨mark, high, hmap⟩ | ⟨hmap, -⟩
    · have hsection : section? (lookup? (.text "overrides") data) = some high := by rw [hmap]; rfl
      obtain ⟨hdistinct, hvalues⟩ := proper_of_section? hsection hproper
      refine ofEntries_congr (matches_effective
        (P := fun p p' => p = p' ∧ p = Schema.entriesBelow (lookup? (.text "preset") data))
        (O := fun o o' => o = Section.setAt site.2 a site.1 high ∧ o' = Section.setAt site.2 b site.1 high)
        (by rw [hpreset, hlayout]; rfl) (by rw [hpreset, hlayout]; rfl) ?_ ?_ ?_ ?_ ?_)
        fun k hk => (htop a k hk).trans (htop b k hk).symm
      · rw [below_congr (congrArg _ (hpreset a)), below_congr (congrArg _ (hpreset b))]
        cases hfields : data.below place "preset" with
        | ok p => exact .ok ⟨rfl, (Schema.section?_eq_entriesBelow (below_eq_ok_iff.mp hfields)).symm⟩
        | error e => exact .error e
      · rw [below_setAt hmap, below_setAt hmap]
        exact .ok ⟨rfl, rfl⟩
      · rintro p p' ⟨rfl, -⟩
        rfl
      · rintro o o' ⟨rfl, rfl⟩
        rw [unknownKeys_setAt hname, unknownKeys_setAt hname]
      · rintro p p' o o' ⟨rfl, rfl⟩ ⟨rfl, rfl⟩
        refine Schema.alikeAll_mergeEntries_setAt (Schema.hasSection_of_mem_sectionPlaces site hsite) hdistinct
          hvalues ?_
        rw [valueAt_sectionsOf hname]
        exact hab
    · rw [setAt_cons_of_not_map hmap, setAt_cons_of_not_map hmap]

/-- A section of the overrides that is nothing is like one that is absent from the overrides and the preset. -/
theorem ofEntries_null_overrides (hsite : site ∈ sectionPlaces)
    (hplace : Section.HasPlace ("overrides" :: site.1) data)
    (hproper : ∀ v ∈ lookup? (.text "overrides") data, v.Proper) :
    ofEntries (Section.setAt site.2 (some (.scalar () .null)) ("overrides" :: site.1) data) declared place =
      ofEntries (Section.setAt site.2 none ("preset" :: site.1)
        (Section.setAt site.2 none ("overrides" :: site.1) data)) declared place := by
  obtain ⟨mark, high, hmap, hplace⟩ := hplace
  have hpreset : ∀ new, lookup? (.text "preset") (Section.setAt site.2 new ("overrides" :: site.1) data) =
      lookup? (.text "preset") data := fun new => lookup?_setAt_of_ne (by simp)
  cases hlayout : lookup? (.text "preset") data with
  | none =>
    have hnot : ∀ mark entries, lookup? (.text "preset")
        (Section.setAt site.2 none ("overrides" :: site.1) data) ≠ some (.map mark entries) := by
      simp [hpreset, hlayout]
    rw [setAt_cons_of_not_map hnot, ofEntries_setAt_overrides_of_none hlayout _ rfl,
      ofEntries_setAt_overrides_of_none hlayout _ rfl]
  | some v =>
    have hname := sectionNames_of_mem_sectionPlaces site hsite
    have htop := fun data new => lookup?_setAt_top data ("overrides" :: site.1) site.2 new (by simp)
    have htop' := fun data new => lookup?_setAt_top data ("preset" :: site.1) site.2 new (by simp)
    have hsection : section? (lookup? (.text "overrides") data) = some high := by rw [hmap]; rfl
    obtain ⟨hdistinct, hvalues⟩ := proper_of_section? hsection hproper
    refine ofEntries_congr (matches_effective
      (P := fun p p' => p' = Section.setAt site.2 none site.1 p)
      (O := fun o o' => o = Section.setAt site.2 (some (.scalar () .null)) site.1 high ∧
        o' = Section.setAt site.2 none site.1 high)
      (by rw [hpreset, hlayout]; rfl) ?_ ?_ ?_ ?_ ?_ ?_)
      fun k hk => ((htop data _ k hk).trans (htop data none k hk).symm).trans (htop' _ none k hk).symm
    · rw [isSome_lookup?_setAt, hpreset, hlayout]
      rfl
    · rw [below_congr (congrArg _ ((hpreset _).trans (hpreset none).symm))]
      exact matches_below_setAt_none
    · rw [below_setAt hmap, below_setAt_of_ne (k := "overrides") (by simp), below_setAt hmap]
      exact .ok ⟨rfl, rfl⟩
    · rintro p p' rfl
      exact (lookup?_setAt_of_ne (ne_of_mem_sectionPlaces hsite (by decide))).symm
    · rintro o o' ⟨rfl, rfl⟩
      rw [unknownKeys_setAt hname, unknownKeys_setAt hname]
    · rintro p p' o o' rfl ⟨rfl, rfl⟩
      refine Schema.alikeAll_congr_right (fun f hf => ?_) (Schema.alikeAll_mergeEntries_null
        (Schema.hasSection_of_mem_sectionPlaces site hsite) hdistinct hvalues hplace (sectionsOf p))
      have hf : f.1 ∈ sectionNames := Schema.sectionNames_of_mem_sectionsSchema f hf
      rw [lookup?_mergeEntries (distinctKeys_setAt hdistinct), lookup?_mergeEntries (distinctKeys_setAt hdistinct),
        lookup?_setAt_congr (lookup?_sectionsOf hf), lookup?_sectionsOf hf]

/-- The overrides as a whole. -/
theorem ofEntries_set_overrides (hab : section? a = section? b) :
    ofEntries (data.set "overrides" a) declared place = ofEntries (data.set "overrides" b) declared place := by
  have htop := fun new => lookup?_setAt_top data [] "overrides" new (by simp)
  have hpreset : ∀ new, lookup? (.text "preset") (data.set "overrides" new) = lookup? (.text "preset") data :=
    fun new => (lookup?_set "preset").trans (if_neg (by simp))
  cases hlayout : lookup? (.text "preset") data with
  | none =>
    have hunread : ∀ new, ofEntries (data.set "overrides" new) declared place = ofEntries data declared place :=
      fun new => ofEntries_setAt_overrides_of_none hlayout [] rfl
    rw [hunread, hunread]
  | some v =>
    refine ofEntries_congr_of_below (by rw [hpreset, hlayout]; rfl) (by rw [hpreset, hlayout]; rfl)
      (below_congr (congrArg _ ((hpreset a).trans (hpreset b).symm))) (below_congr ?_)
      fun k hk => (htop a k hk).trans (htop b k hk).symm
    rwa [lookup?_set, lookup?_set, if_pos rfl, if_pos rfl]

/-- The preset as a whole, where there is one. -/
theorem ofEntries_set_preset {v w : Value Unit} (hvw : section? (some v) = section? (some w)) :
    ofEntries (data.set "preset" (some v)) declared place = ofEntries (data.set "preset" (some w)) declared place := by
  have htop := fun new => lookup?_setAt_top data [] "preset" new (by simp)
  have hpreset : ∀ u, lookup? (.text "preset") (data.set "preset" (some u)) = some u :=
    fun u => (lookup?_set "preset").trans (if_pos rfl)
  refine ofEntries_congr_of_below (by rw [hpreset]; rfl) (by rw [hpreset]; rfl) (below_congr ?_) (below_congr ?_)
    fun k hk => (htop _ k hk).trans (htop _ k hk).symm
  · rwa [hpreset, hpreset]
  · rw [lookup?_set, lookup?_set, if_neg (by simp), if_neg (by simp)]

end Changes

/-! ## Sections that are absent, nothing or empty -/

/-- The ways in which a section has no settings. -/
inductive Blank where
  | absent
  | null
  | empty

/-- What stands at the key of a section without settings. -/
def Blank.found : Blank → Option (Value Unit)
  | absent => none
  | null => some (.scalar () .null)
  | empty => some (.map () [])

theorem Blank.section?_found (b : Blank) : section? b.found = some [] := by
  cases b <;> rfl

/-- An empty map lies over a section like nothing at all. -/
theorem sectionOver?_empty {lower : Option (Value Unit)} (h : section? lower ≠ none) :
    sectionOver? lower Blank.empty.found = section? lower := by
  obtain ⟨entries, hentries⟩ := Option.ne_none_iff_exists'.mp h
  rw [sectionOver?, Blank.found, Schema.overlay_map .nil, hentries, Schema.section?_eq_entriesBelow hentries]
  rfl

/-- **When sections without settings are read alike.** How a section is without settings makes no difference at the
top level and in a preset, and neither does it for the overrides as a whole. A preset that is nothing is like an empty
one, and with either the sections beside it are not read. Among overrides an empty map is like an absent section where
the preset has a section or none, and nothing takes away the section of the preset. -/
theorem ofEntries_blank {data : Section} (hproper : ∀ v ∈ lookup? (.text "overrides") data, v.Proper)
    (declared : Except ModulePath.Error String) (place : String) :
    (∀ site ∈ sectionPlaces, ∀ a b : Blank,
      ofEntries (Section.setAt site.2 a.found site.1 data) declared place =
          ofEntries (Section.setAt site.2 b.found site.1 data) declared place ∧
        ofEntries (Section.setAt site.2 a.found ("preset" :: site.1) data) declared place =
          ofEntries (Section.setAt site.2 b.found ("preset" :: site.1) data) declared place) ∧
    (∀ a b : Blank, ofEntries (data.set "overrides" a.found) declared place =
      ofEntries (data.set "overrides" b.found) declared place) ∧
    (ofEntries (data.set "preset" Blank.null.found) declared place =
        ofEntries (data.set "preset" Blank.empty.found) declared place ∧
      ∀ site ∈ sectionPlaces, ∀ new,
        ofEntries (Section.setAt site.2 new site.1 (data.set "preset" Blank.null.found)) declared place =
          ofEntries (data.set "preset" Blank.null.found) declared place) ∧
    ∀ site ∈ sectionPlaces,
      (section? (Section.valueAt site.2 ("preset" :: site.1) data) ≠ none →
        ofEntries (Section.setAt site.2 Blank.absent.found ("overrides" :: site.1) data) declared place =
          ofEntries (Section.setAt site.2 Blank.empty.found ("overrides" :: site.1) data) declared place) ∧
      (section? (Section.valueAt site.2 ("preset" :: site.1) data) = some [] → ∀ a b : Blank,
        ofEntries (Section.setAt site.2 a.found ("overrides" :: site.1) data) declared place =
          ofEntries (Section.setAt site.2 b.found ("overrides" :: site.1) data) declared place) ∧
      (Section.HasPlace ("overrides" :: site.1) data →
        ofEntries (Section.setAt site.2 Blank.null.found ("overrides" :: site.1) data) declared place =
          ofEntries (Section.setAt site.2 none ("preset" :: site.1)
            (Section.setAt site.2 none ("overrides" :: site.1) data)) declared place) := by
  have hsame : ∀ a b : Blank, section? a.found = section? b.found :=
    fun a b => a.section?_found.trans b.section?_found.symm
  refine ⟨fun site hsite a b => ⟨ofEntries_setAt_section hsite (hsame a b),
    ofEntries_setAt_preset hsite (hsame a b) hproper⟩, fun a b => ofEntries_set_overrides (hsame a b),
    ⟨ofEntries_set_preset rfl, fun site hsite new => ofEntries_setAt_hidden hsite ?_⟩,
    fun site hsite => ⟨fun hpreset => ?_, fun hpreset a b => ?_, fun hplace =>
      ofEntries_null_overrides hsite hplace hproper⟩⟩
  · rw [lookup?_set, if_pos rfl]
    rfl
  · exact ofEntries_setAt_overrides hsite (sectionOver?_empty hpreset).symm hproper
  · have hblank : ∀ c : Blank,
        sectionOver? (Section.valueAt site.2 ("preset" :: site.1) data) c.found = some [] := fun c => by
      cases c with
      | absent => exact hpreset
      | null => rw [sectionOver?, Blank.found, Schema.overlay_of_not_isMap (v := .scalar () .null) id]; rfl
      | empty => rw [sectionOver?_empty (by rw [hpreset]; exact Option.some_ne_none _), hpreset]
    exact ofEntries_setAt_overrides hsite ((hblank a).trans (hblank b).symm) hproper

/-- A document whose preset looks for unused packages and whose overrides are empty. -/
def unusedDocument : Section :=
  [(.text "preset", .record [("rules", .record [("detect_unused", .scalar () (.bool true))])]),
    (.text "overrides", .record [])]

/-- Rules that are nothing among the overrides are like rules that the preset does not have either. -/
theorem ofEntries_blank_unused :
    ofEntries (Section.setAt "rules" Blank.null.found ["overrides"] unusedDocument) (.ok "m") "" =
      ofEntries (Section.setAt "rules" none ["preset"] (Section.setAt "rules" none ["overrides"] unusedDocument))
        (.ok "m") "" := by
  have hproper : ∀ v ∈ lookup? (.text "overrides") unusedDocument, v.Proper := by
    rintro v ⟨⟩
    exact .map .nil (by simp)
  exact ((ofEntries_blank hproper (.ok "m") "").2.2.2 ([], "rules") (by decide)).2.2 ⟨_, _, rfl, trivial⟩

/-- Nothing among the overrides and nothing at `preset` are not like an absent section: the first takes away what the
preset has, the second what stands beside it. -/
theorem ofEntries_not_blank :
    (¬ ∀ (data : Section) (a b : Blank), ∀ site ∈ sectionPlaces,
      ofEntries (Section.setAt site.2 a.found ("overrides" :: site.1) data) (.ok "m") "" =
        ofEntries (Section.setAt site.2 b.found ("overrides" :: site.1) data) (.ok "m") "") ∧
    ¬ ∀ (data : Section) (a b : Blank),
      ofEntries (data.set "preset" a.found) (.ok "m") "" = ofEntries (data.set "preset" b.found) (.ok "m") "" := by
  constructor
  · intro hall
    have hsame := hall unusedDocument .absent .null ([], "rules") (by decide)
    exact absurd (congrArg (fun r => r.toOption.map (·.policy.detectUnused)) hsame) (by decide +kernel)
  · intro hall
    have hsame := hall [(.text "rules", .record [("detect_unused", .scalar () (.bool true))])] .absent .null
    exact absurd (congrArg (fun r => r.toOption.map (·.policy.detectUnused)) hsame) (by decide +kernel)

end LayerLint.Settings
