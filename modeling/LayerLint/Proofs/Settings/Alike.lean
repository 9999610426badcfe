import LayerLint.Proofs.Settings.Document
import LayerLint.Proofs.Yaml.Overlay

/-!
# Documents that are read alike

Two computations match when both end with one error or their results are related (`Result.Matches`), and steps that
match follow each other (`Matches.bind`).

- What stands at a key is alike for a schema when its readers see no difference (`Schema.Alike`): settings are equal,
  and sections hold what is alike. An absent section, nothing and an empty map are alike.
- Documents whose sections in force are alike give the same settings (`matches_ofEntries`).
- What is alike stays alike under overrides (`Schema.alike_overlay`).
-/

namespace LayerLint.Result

variable {ε α β α' β' : Type} {R : α → β → Prop} {S : α' → β' → Prop}

/-- Both computations end with one error, or their results are related. -/
inductive Matches (R : α → β → Prop) : Except ε α → Except ε β → Prop where
  | ok {a : α} {b : β} (h : R a b) : Matches R (.ok a) (.ok b)
  | error (e : ε) : Matches R (.error e) (.error e)

namespace Matches

theorem bind {x : Except ε α} {y : Except ε β} {f : α → Except ε α'} {g : β → Except ε β'} (h : Matches R x y)
    (hfg : ∀ a b, R a b → Matches S (f a) (g b)) : Matches S (x >>= f) (y >>= g) := by
  cases h with
  | ok h => exact hfg _ _ h
  | error e => exact .error e

/-- A step that both computations take alike. -/
theorem bind_same {x : Except ε α} {f : α → Except ε α'} {g : α → Except ε β'}
    (hfg : ∀ a, Matches S (f a) (g a)) : Matches S (x >>= f) (x >>= g) := by
  cases x with
  | ok a => exact hfg a
  | error e => exact .error e

theorem eq {x y : Except ε α} (h : Matches Eq x y) : x = y := by
  cases h with
  | ok h => rw [h]
  | error e => rfl

end Matches

end LayerLint.Result

namespace LayerLint.Settings

open Yaml Result

/-! ## Readers of a section -/

section Readers

variable {s t : Section} {place key : String}

theorem setting?_congr (h : lookup? (.text key) s = lookup? (.text key) t) : s.setting? key = t.setting? key := by
  rw [Section.setting?, Section.setting?, h]

theorem truth_congr (h : lookup? (.text key) s = lookup? (.text key) t) (default : Bool) :
    s.truth place key default = t.truth place key default := by
  rw [Section.truth, Section.truth, setting?_congr h]

theorem text_congr (h : lookup? (.text key) s = lookup? (.text key) t) : s.text place key = t.text place key := by
  rw [Section.text, Section.text, setting?_congr h]

theorem texts_congr (h : lookup? (.text key) s = lookup? (.text key) t) : s.texts place key = t.texts place key := by
  rw [Section.texts, Section.texts, setting?_congr h]

theorem textsOr_congr (h : lookup? (.text key) s = lookup? (.text key) t) (default : List String) :
    s.textsOr place key default = t.textsOr place key default := by
  rw [Section.textsOr, Section.textsOr, texts_congr h]

theorem number_congr (h : lookup? (.text key) s = lookup? (.text key) t) (default : Binary64) :
    s.number place key default = t.number place key default := by
  rw [Section.number, Section.number, setting?_congr h]

/-- The section below a key is read off what stands there. -/
theorem below_eq : s.below place key =
    match section? (lookup? (.text key) s) with
    | some entries => .ok entries
    | none => .error (.wrongKind place key .mapping) := by
  rw [Section.below, Section.setting?]
  rcases lookup? (.text key) s with _ | v
  · rfl
  · cases v with
    | scalar mark value => cases value <;> rfl
    | list | map | set | pairs | cycle => rfl

theorem below_congr (h : section? (lookup? (.text key) s) = section? (lookup? (.text key) t)) :
    s.below place key = t.below place key := by
  rw [below_eq, below_eq, h]

end Readers

/-! ## Readers of several settings -/

section Groups

variable {s t : Section} {place : String}

theorem sharedMode_congr (h : lookup? (.text "mode") s = lookup? (.text "mode") t) :
    sharedModeOf s place = sharedModeOf t place := by
  rw [sharedModeOf, sharedModeOf, text_congr h]

theorem testLocation_congr (h : lookup? (.text "location") s = lookup? (.text "location") t) :
    testLocationOf s place = testLocationOf t place := by
  rw [testLocationOf, testLocationOf, text_congr h]

theorem packageThresholds_congr
    (h : section? (lookup? (.text "package_thresholds") s) = section? (lookup? (.text "package_thresholds") t)) :
    packageThresholdsOf s place = packageThresholdsOf t place := by
  rw [packageThresholdsOf, packageThresholdsOf, below_congr h]

theorem requiredDirectories_congr
    (h : section? (lookup? (.text "required_directories") s) = section? (lookup? (.text "required_directories") t)) :
    requiredDirectoriesOf s place = requiredDirectoriesOf t place := by
  rw [requiredDirectoriesOf, requiredDirectoriesOf, below_congr h]

theorem directoriesImport_congr
    (h : section? (lookup? (.text "directories_import") s) = section? (lookup? (.text "directories_import") t)) :
    directoriesImportOf s place = directoriesImportOf t place := by
  rw [directoriesImportOf, directoriesImportOf, below_congr h]

end Groups

/-! ## What readers see no difference in -/

namespace Schema

mutual

/-- A reader of the schema sees no difference between what stands at two keys. -/
def Alike : Schema → Option (Value Unit) → Option (Value Unit) → Prop
  | .setting _, x, y => x = y
  | .every _, x, y => section? x = section? y
  | .record fields, x, y =>
    match section? x, section? y with
    | some s, some t => AlikeAll fields s t
    | none, none => True
    | _, _ => False

/-- What stands at each of the names is alike. -/
def AlikeAll : List (String × Schema) → Section → Section → Prop
  | [], _, _ => True
  | (name, schema) :: rest, s, t =>
    schema.Alike (lookup? (.text name) s) (lookup? (.text name) t) ∧ AlikeAll rest s t

end

mutual

theorem Alike.refl : ∀ (schema : Schema) (x : Option (Value Unit)), schema.Alike x x
  | .setting _, _ => by rw [Alike]
  | .every _, _ => by rw [Alike]
  | .record fields, x => by
    rw [Alike]
    cases section? x with
    | none => trivial
    | some s => exact AlikeAll.refl fields s

theorem AlikeAll.refl : ∀ (fields : List (String × Schema)) (s : Section), AlikeAll fields s s
  | [], _ => trivial
  | (_, schema) :: rest, s => ⟨Alike.refl schema _, AlikeAll.refl rest s⟩

end

variable {fields : List (String × Schema)} {s t : Section}

theorem alike_setting {kind : Kind} {x y : Option (Value Unit)} : (setting kind).Alike x y ↔ x = y := by
  rw [Alike]

theorem alike_every {kind : Kind} {x y : Option (Value Unit)} :
    (every kind).Alike x y ↔ section? x = section? y := by
  rw [Alike]

/-- Sections are alike when what stands at every name is. -/
theorem alikeAll_of_forall (h : ∀ f ∈ fields, f.2.Alike (lookup? (.text f.1) s) (lookup? (.text f.1) t)) :
    AlikeAll fields s t := by
  induction fields with
  | nil => trivial
  | cons f rest ih => exact ⟨h f (.head _), ih fun g hg => h g (.tail _ hg)⟩

theorem alikeAll_of_lookup (h : ∀ f ∈ fields, lookup? (.text f.1) s = lookup? (.text f.1) t) :
    AlikeAll fields s t :=
  alikeAll_of_forall fun f hf => h f hf ▸ Alike.refl f.2 _

theorem alike_record {x y : Option (Value Unit)} {entries entries' : Section} (hx : section? x = some entries)
    (hy : section? y = some entries') (h : AlikeAll fields entries entries') : (Schema.record fields).Alike x y := by
  rw [Alike, hx, hy]
  exact h

/-- Reading sections that are alike ends alike. -/
theorem matches_below {place key : String}
    (h : (Schema.record fields).Alike (lookup? (.text key) s) (lookup? (.text key) t)) :
    Matches (AlikeAll fields) (s.below place key) (t.below place key) := by
  rw [below_eq, below_eq]
  rw [Alike] at h
  cases hs : section? (lookup? (.text key) s) with
  | none =>
    cases ht : section? (lookup? (.text key) t) with
    | none => exact .error _
    | some entries' => simp [hs, ht] at h
  | some entries =>
    cases ht : section? (lookup? (.text key) t) with
    | none => simp [hs, ht] at h
    | some entries' => exact .ok (by simpa [hs, ht] using h)

/-! ## Under overrides -/

theorem entriesBelow_eq (found : Option (Value Unit)) : entriesBelow found = (section? found).getD [] := by
  rcases found with _ | v
  · rfl
  · cases v with
    | scalar mark value => cases value <;> rfl
    | list | map | set | pairs | cycle => rfl

/-- A map is laid over the entries below it. -/
theorem overlay_map {high : Section} (h : DistinctKeys high) (lower : Option (Value Unit)) (mark : Unit) :
    overlay lower (some (.map mark high)) = some (.map () (mergeEntries (entriesBelow lower) high)) := by
  cases lower with
  | none => simp [overlay, entriesBelow, mergeEntries_nil h]
  | some v => cases v <;> simp [overlay, merge, entriesBelow, mergeEntries_nil h]

mutual

/-- **What is alike stays alike under overrides.** -/
theorem alike_overlay : ∀ (schema : Schema) {x y upper : Option (Value Unit)}, (∀ v ∈ upper, v.Proper) →
    schema.Alike x y → schema.Alike (overlay x upper) (overlay y upper)
  | _, _, _, none, _, h => h
  | schema, x, y, some u, hupper, h => by
    cases hupper u rfl with
    | other hu => rw [overlay_of_not_isMap hu, overlay_of_not_isMap hu]; exact Alike.refl schema _
    | @map mark high distinct values =>
      rw [overlay_map distinct, overlay_map distinct]
      cases schema with
      | setting kind => rw [Alike] at h ⊢; rw [h]
      | every kind => rw [Alike] at h ⊢; rw [entriesBelow_eq, entriesBelow_eq, h]
      | record fields =>
        refine alike_record rfl rfl (alikeAll_mergeEntries fields distinct values ?_)
        rw [entriesBelow_eq, entriesBelow_eq]
        rw [Alike] at h
        cases hx : section? x with
        | none =>
          cases hy : section? y with
          | none => exact AlikeAll.refl fields _
          | some t => simp [hx, hy] at h
        | some s =>
          cases hy : section? y with
          | none => simp [hx, hy] at h
          | some t => simpa [hx, hy] using h

theorem alikeAll_mergeEntries : ∀ (fields : List (String × Schema)) {low low' high : Section}, DistinctKeys high →
    (∀ e ∈ high, e.2.Proper) → AlikeAll fields low low' →
      AlikeAll fields (mergeEntries low high) (mergeEntries low' high)
  | [], _, _, _, _, _, _ => trivial
  | (name, schema) :: rest, low, low', high, hdistinct, hproper, h => by
    refine ⟨?_, alikeAll_mergeEntries rest hdistinct hproper h.2⟩
    rw [lookup?_mergeEntries hdistinct, lookup?_mergeEntries hdistinct]
    refine alike_overlay schema (fun v hv => ?_) h.1
    obtain ⟨e, he, rfl⟩ := mem_of_lookup? hv
    exact hproper e he

end

end Schema

/-! ## Reading documents -/

/-- The settings are equal but for the name of the preset, where the names are related. -/
def SameButPreset (Q : Option String → Option String → Prop) (a b : Settings) : Prop :=
  Q a.preset b.preset ∧ b = { a with preset := b.preset }

theorem promptOf_congr {s t : Section} {place : String} (h : Schema.AlikeAll
    [("enabled", .setting .truth), ("architectural_goals", .setting .text), ("principles", .setting .texts),
      ("refactoring_guidance", .setting .text), ("coverage_guidance", .setting .text),
      ("blackbox_testing_guidance", .setting .text)] s t) : promptOf s place = promptOf t place := by
  obtain ⟨henabled, hgoals, hprinciples, hrefactoring, hcoverage, hblackbox, -⟩ := h
  simp only [Schema.alike_setting] at *
  rw [promptOf, promptOf, truth_congr henabled, text_congr hgoals, texts_congr hprinciples, text_congr hrefactoring,
    text_congr hcoverage, text_congr hblackbox]

theorem SameButPreset.eq {a b : Settings} (h : SameButPreset Eq a b) : a = b := by
  obtain ⟨hpreset, hb⟩ := h
  rw [hb, ← hpreset]

variable {data data' : Section} {declared : Except ModulePath.Error String} {place : String}
  {Q : Option String → Option String → Prop}

/-- **Documents whose sections in force are alike are read alike.** -/
theorem matches_ofEntries
    (heffective : Matches (fun a b => Schema.AlikeAll sectionsSchema a.1 b.1 ∧ Q a.2 b.2)
      (effective data place) (effective data' place))
    (htop : ∀ key ∈ ["module", "scan_paths", "ignore_paths"], lookup? (.text key) data = lookup? (.text key) data') :
    Matches (SameButPreset Q) (ofEntries data declared place) (ofEntries data' declared place) := by
  have hmodule : modulePathOf data declared place = modulePathOf data' declared place := by
    rw [modulePathOf, modulePathOf, text_congr (htop "module" (by simp))]
  have hscan : data.textsOr place "scan_paths" standardScanPaths = data'.textsOr place "scan_paths" standardScanPaths :=
    textsOr_congr (htop "scan_paths" (by simp)) _
  have hignore : data.textsOr place "ignore_paths" standardIgnorePaths =
      data'.textsOr place "ignore_paths" standardIgnorePaths := textsOr_congr (htop "ignore_paths" (by simp)) _
  unfold ofEntries
  refine heffective.bind ?_
  rintro ⟨body, preset⟩ ⟨body', preset'⟩ ⟨hbody, hpreset⟩
  obtain ⟨hstructure, hrules, hprompt, -⟩ := hbody
  refine (Schema.matches_below hstructure).bind ?_
  rintro structureSection structureSection' ⟨hrequired, hother, -⟩
  refine (Schema.matches_below hrules).bind ?_
  rintro rules rules' ⟨himport, hunused, hshared, htests, hcoverage, -⟩
  refine (Schema.matches_below hshared).bind ?_
  rintro shared shared' ⟨hdetect, hmode, hexclusions, hpatterns, -⟩
  refine (Schema.matches_below htests).bind ?_
  rintro tests tests' ⟨hlint, hlocation, hblackbox, hstrict, hmissing, -⟩
  refine (Schema.matches_below hcoverage).bind ?_
  rintro coverage coverage' ⟨henabled, hthreshold, hthresholds, -⟩
  simp only [Schema.alike_setting, Schema.alike_every] at *
  rw [hmodule, hscan, hignore, sharedMode_congr hmode, testLocation_congr hlocation,
    packageThresholds_congr hthresholds, requiredDirectories_congr hrequired, directoriesImport_congr himport,
    truth_congr hother, truth_congr hunused, truth_congr hdetect, texts_congr hexclusions, texts_congr hpatterns,
    truth_congr hlint, truth_congr hblackbox, truth_congr hstrict, truth_congr hmissing, truth_congr henabled,
    number_congr hthreshold]
  -- all settings but those of the prompt are read by equal steps
  iterate 19 refine .bind_same fun _ => ?_
  refine (Schema.matches_below hprompt).bind ?_
  intro prompt prompt' hprompt
  rw [promptOf_congr hprompt]
  exact .bind_same fun _ => .ok ⟨hpreset, rfl⟩

/-- Documents whose sections in force are alike, with the same preset, give the same settings. -/
theorem ofEntries_congr
    (heffective : Matches (fun a b => Schema.AlikeAll sectionsSchema a.1 b.1 ∧ a.2 = b.2)
      (effective data place) (effective data' place))
    (htop : ∀ key ∈ ["module", "scan_paths", "ignore_paths"], lookup? (.text key) data = lookup? (.text key) data') :
    ofEntries data declared place = ofEntries data' declared place := by
  have hmatches : Matches (SameButPreset Eq) (ofEntries data declared place) (ofEntries data' declared place) :=
    matches_ofEntries heffective htop
  generalize ofEntries data declared place = x, ofEntries data' declared place = y at hmatches
  cases hmatches with
  | ok h => rw [h.eq]
  | error e => rfl

end LayerLint.Settings
