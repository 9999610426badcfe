import LayerLint.Proofs.Settings.Schema

/-!
# Documents that are accepted

`sectionsSchema` says which settings a configuration has.

- A document is accepted when its sections fit the schema and the path of the module and the paths to scan and to
  ignore can be read (`exists_ofEntries_iff`); these paths are then the ones of the settings (`ofEntries_eq_ok`).
- Overrides that are accepted with one preset are accepted with every other one whose sections fit
  (`exists_effective_of_same_overrides`).
-/

namespace LayerLint.Settings

open Yaml Result

/-- The settings of configurations. -/
def sectionsSchema : List (String × Schema) :=
  [("structure", .record
      [("required_directories", .every .shown), ("allow_other_directories", .setting .truth)]),
    ("rules", .record
      [("directories_import", .every .paths), ("detect_unused", .setting .truth),
        ("shared_external_imports", .record
          [("detect", .setting .truth), ("mode", .setting .sharedMode), ("exclusions", .setting .texts),
            ("exclusion_patterns", .setting .texts)]),
        ("test_files", .record
          [("lint", .setting .truth), ("location", .setting .testLocation), ("require_blackbox", .setting .truth),
            ("strict_naming", .setting .truth), ("flag_missing_tests", .setting .truth)]),
        ("test_coverage", .record
          [("enabled", .setting .truth), ("threshold", .setting .number), ("package_thresholds", .every .number)])]),
    ("error_prompt", .record
      [("enabled", .setting .truth), ("architectural_goals", .setting .text), ("principles", .setting .texts),
        ("refactoring_guidance", .setting .text), ("coverage_guidance", .setting .text),
        ("blackbox_testing_guidance", .setting .text)])]

variable {s entries : Section} {place key : String}

/-! ## Reading settings -/

theorem below_eq_ok_iff : s.below place key = .ok entries ↔ section? (lookup? (.text key) s) = some entries := by
  rw [Section.below, Section.setting?]
  rcases lookup? (.text key) s with _ | v
  · simp [section?]
  · cases v with
    | scalar mark value => cases value <;> simp [section?]
    | list | map | set | pairs | cycle => simp [section?]

theorem Section.asTexts?_texts (items : List String) : Section.asTexts? (.texts items) = some items := by
  simp only [Value.texts, Section.asTexts?]
  induction items with
  | nil => rfl
  | cons item rest ih => simp [List.mapM_cons, ih, Value.text, Section.asText?]

/-- A setting can be read when it is of its kind. -/
theorem fits_setting_iff {kind : Kind} : (Schema.setting kind).Fits (lookup? (.text key) s) ↔
    ∀ v ∈ s.setting? key, kind.accepts v = true := by
  rw [Schema.Fits, Section.setting?]
  rcases lookup? (.text key) s with _ | v
  · simp
  · cases v with
    | scalar mark value => cases value <;> simp
    | list | map | set | pairs | cycle => simp

theorem exists_truth_iff {default : Bool} :
    (∃ b, s.truth place key default = .ok b) ↔ (Schema.setting .truth).Fits (lookup? (.text key) s) := by
  rw [fits_setting_iff, Section.truth]
  rcases s.setting? key with _ | v
  · simp
  · cases v with
    | scalar mark value => cases value <;> simp [Kind.accepts]
    | list | map | set | pairs | cycle => simp [Kind.accepts]

theorem exists_text_iff :
    (∃ word, s.text place key = .ok word) ↔ (Schema.setting .text).Fits (lookup? (.text key) s) := by
  rw [fits_setting_iff, Section.text]
  rcases s.setting? key with _ | v
  · simp
  · cases h : Section.asText? v <;> simp [Kind.accepts, h]

/-- A text that is read is what stands at the key, or empty where nothing does. -/
theorem text_eq_ok {word : String} (h : s.text place key = .ok word) :
    word ≠ "" ∧ lookup? (.text key) s = some (.text word) ∨
      word = "" ∧ ∀ v ∈ lookup? (.text key) s, v.isFalsy = true := by
  rw [Section.text, Section.setting?] at h
  cases hfound : lookup? (.text key) s with
  | none =>
    obtain rfl : "" = word := by simpa [hfound] using h
    exact .inr ⟨rfl, by simp⟩
  | some v =>
    rw [hfound] at h
    cases v with
    | scalar mark scalar =>
      cases scalar with
      | null =>
        obtain rfl : "" = word := by simpa using h
        exact .inr ⟨rfl, by simp [Value.isFalsy, Scalar.isFalsy]⟩
      | text found =>
        obtain rfl : found = word := by simpa [Section.asText?] using h
        by_cases hempty : found = ""
        · exact .inr ⟨hempty, by simp [hempty, Value.isFalsy, Scalar.isFalsy]⟩
        · exact .inl ⟨hempty, rfl⟩
      | bool | int | float | strayNan | bytes | date | timestamp => simp [Section.asText?] at h
    | list | map | set | pairs | cycle => simp [Section.asText?] at h

theorem exists_texts_iff :
    (∃ items, s.texts place key = .ok items) ↔ (Schema.setting .texts).Fits (lookup? (.text key) s) := by
  rw [fits_setting_iff, Section.texts]
  rcases s.setting? key with _ | v
  · simp
  · cases h : Section.asTexts? v <;> simp [Kind.accepts, h]

theorem exists_numberOf_iff {v : Value Unit} :
    (∃ x, Section.numberOf place key v = .ok x) ↔ Kind.number.accepts v = true := by
  cases v with
  | scalar mark value =>
    cases value with
    | int n => cases h : Binary64.ofInt? n <;> simp [Section.numberOf, Kind.accepts, h]
    | _ => simp [Section.numberOf, Kind.accepts]
  | list | map | set | pairs | cycle => simp [Section.numberOf, Kind.accepts]

theorem exists_number_iff {default : Binary64} :
    (∃ x, s.number place key default = .ok x) ↔ (Schema.setting .number).Fits (lookup? (.text key) s) := by
  rw [fits_setting_iff, Section.number]
  rcases s.setting? key with _ | v
  · simp
  · simpa using exists_numberOf_iff

/-- What is made of a text can be read where the text is one of those that something is made of. -/
theorem exists_text_bind_iff {α : Type} {f : String → Except SettingsError α} {known : String → Bool}
    (hempty : known "" = true) (hf : ∀ word, (∃ a, f word = .ok a) ↔ known word = true) :
    (∃ a, (s.text place key >>= f) = .ok a) ↔
      ∀ v ∈ s.setting? key, (Section.asText? v).any known = true := by
  rw [exists_bind_eq_ok, Section.text]
  simp only [hf]
  rcases s.setting? key with _ | v
  · simp [hempty]
  · cases h : Section.asText? v <;> simp [h]

theorem exists_sharedMode_iff :
    (∃ mode, sharedModeOf s place = .ok mode) ↔ (Schema.setting .sharedMode).Fits (lookup? (.text "mode") s) := by
  rw [fits_setting_iff, sharedModeOf]
  refine exists_text_bind_iff rfl fun word => ?_
  by_cases hempty : word.isEmpty = true
  · simp [hempty, pure, Except.pure]
  · cases SharedImportsMode.ofName? word <;> simp [hempty, pure, Except.pure]

theorem exists_testLocation_iff :
    (∃ location, testLocationOf s place = .ok location) ↔
      (Schema.setting .testLocation).Fits (lookup? (.text "location") s) := by
  rw [fits_setting_iff, testLocationOf]
  refine exists_text_bind_iff rfl fun word => ?_
  by_cases hempty : word.isEmpty = true
  · simp [hempty, pure, Except.pure]
  · cases TestLocation.ofName? word <;> simp [hempty, pure, Except.pure]

theorem exists_keyText_iff {k : Scalar} : (∃ t, Section.keyText k = .ok t) ↔ k.isWritable = true := by
  rw [Section.keyText]
  split <;> simp_all

theorem exists_valueText_iff {v : Value Unit} : (∃ t, Section.valueText v = .ok t) ↔ v.isWritable = true := by
  rw [Section.valueText]
  split <;> simp_all

theorem exists_packageThresholds_iff :
    (∃ thresholds, packageThresholdsOf s place = .ok thresholds) ↔
      (Schema.every .number).Fits (lookup? (.text "package_thresholds") s) := by
  simp only [packageThresholdsOf, exists_bind_eq_ok, exists_pure_eq_ok, and_true, below_eq_ok_iff, exists_mapM_eq_ok,
    exists_and_right, exists_keyText_iff, exists_numberOf_iff, Schema.Fits]

theorem exists_purposeOf_iff {v : Value Unit} : (∃ t, purposeOf v = .ok t) ↔ Kind.shown.accepts v = true := by
  rw [purposeOf.eq_def]
  split
  · simp [Kind.accepts, Value.isWritable, Scalar.isWritable]
  · exact exists_valueText_iff

theorem exists_requiredDirectories_iff :
    (∃ directories, requiredDirectoriesOf s place = .ok directories) ↔
      (Schema.every .shown).Fits (lookup? (.text "required_directories") s) := by
  simp only [requiredDirectoriesOf, exists_bind_eq_ok, exists_pure_eq_ok, and_true, below_eq_ok_iff, exists_mapM_eq_ok,
    exists_and_right, exists_keyText_iff, exists_purposeOf_iff, Schema.Fits]

theorem exists_importsOf_iff {directory : String} {v : Value Unit} :
    (∃ paths, importsOf place directory v = .ok paths) ↔ Kind.paths.accepts v = true := by
  cases v with
  | scalar mark value => cases value <;> simp [importsOf, Kind.accepts, Section.asTexts?]
  | list mark items => cases h : Section.asTexts? (.list mark items) <;> simp [importsOf, Kind.accepts, h]
  | pairs mark items => cases h : Section.asTexts? (.pairs mark items) <;> simp [importsOf, Kind.accepts, h]
  | map | set | cycle => simp [importsOf, Kind.accepts, Section.asTexts?]

theorem exists_directoriesImport_iff :
    (∃ imports, directoriesImportOf s place = .ok imports) ↔
      (Schema.every .paths).Fits (lookup? (.text "directories_import") s) := by
  simp only [directoriesImportOf, exists_bind_eq_ok, exists_pure_eq_ok, and_true, below_eq_ok_iff, exists_mapM_eq_ok,
    exists_and_right, exists_keyText_iff, exists_importsOf_iff, Schema.Fits]

theorem exists_presetName_iff :
    (∃ name, presetName s = .ok name) ↔ ∀ v ∈ lookup? (.text "name") s, v.isWritable = true := by
  rw [presetName]
  cases lookup? (.text "name") s with
  | none => simp
  | some v =>
    simp only [Option.mem_def, Option.some.injEq, forall_eq']
    split
    · rename_i hfalsy
      simp [Value.isWritable_of_isFalsy hfalsy]
    · simp only [map_eq_ok, ← exists_valueText_iff]
      simp

theorem exists_promptOf_iff :
    (∃ prompt, promptOf s place = .ok prompt) ↔ Schema.FitsAll
      [("enabled", .setting .truth), ("architectural_goals", .setting .text), ("principles", .setting .texts),
        ("refactoring_guidance", .setting .text), ("coverage_guidance", .setting .text),
        ("blackbox_testing_guidance", .setting .text)] s := by
  simp only [promptOf, exists_bind_eq_ok, exists_pure_eq_ok, exists_and_right, and_true, Schema.FitsAll,
    exists_truth_iff, exists_text_iff, exists_texts_iff]

/-! ## Reading a document -/

variable {data : Section} {declared : Except ModulePath.Error String}

/-- **What an accepted document fixes.** -/
theorem ofEntries_eq_ok {settings : Settings} (h : ofEntries data declared place = .ok settings) :
    modulePathOf data declared place = .ok settings.modulePath ∧
      data.textsOr place "scan_paths" standardScanPaths = .ok settings.scanPaths ∧
      data.textsOr place "ignore_paths" standardIgnorePaths = .ok settings.ignorePaths := by
  simp only [ofEntries, bind_eq_ok, pure_eq_ok] at h
  grind

/-- **A document is accepted when its sections fit and the paths can be read.** -/
theorem exists_ofEntries_iff : (∃ settings, ofEntries data declared place = .ok settings) ↔
    (∃ body preset, effective data place = .ok (body, preset) ∧ Schema.FitsAll sectionsSchema body) ∧
      (∃ path, modulePathOf data declared place = .ok path) ∧
      (∃ scanPaths, data.textsOr place "scan_paths" standardScanPaths = .ok scanPaths) ∧
      ∃ ignorePaths, data.textsOr place "ignore_paths" standardIgnorePaths = .ok ignorePaths := by
  simp only [ofEntries, exists_bind_eq_ok, exists_pure_eq_ok, exists_and_right, and_true, below_eq_ok_iff,
    exists_truth_iff, exists_texts_iff, exists_number_iff, exists_sharedMode_iff, exists_testLocation_iff,
    exists_packageThresholds_iff, exists_requiredDirectories_iff, exists_directoriesImport_iff, exists_promptOf_iff,
    sectionsSchema, Schema.fits_record_iff, Schema.FitsAll]
  constructor
  · rintro ⟨⟨body, preset⟩, heffective, structureSection, hstructure, rules, hrules, shared, hshared, tests, htests,
      coverage, hcoverage, hmodule, hmode, hlocation, hthresholds, hscan, hignore, hrequired, hother, himport, hunused,
      hdetect, hexclusions, hpatterns, hlint, hblackbox, hstrict, hmissing, henabled, hthreshold, hprompt⟩
    exact ⟨⟨body, ⟨preset, heffective⟩, ⟨structureSection, hstructure, hrequired, hother⟩,
      ⟨rules, hrules, himport, hunused, ⟨shared, hshared, hdetect, hmode, hexclusions, hpatterns⟩,
        ⟨tests, htests, hlint, hlocation, hblackbox, hstrict, hmissing⟩,
        ⟨coverage, hcoverage, henabled, hthreshold, hthresholds⟩⟩, hprompt⟩,
      hmodule, hscan, hignore⟩
  · rintro ⟨⟨body, ⟨preset, heffective⟩, ⟨structureSection, hstructure, hrequired, hother⟩,
      ⟨rules, hrules, himport, hunused, ⟨shared, hshared, hdetect, hmode, hexclusions, hpatterns⟩,
        ⟨tests, htests, hlint, hlocation, hblackbox, hstrict, hmissing⟩,
        ⟨coverage, hcoverage, henabled, hthreshold, hthresholds⟩⟩, hprompt⟩,
      hmodule, hscan, hignore⟩
    exact ⟨⟨body, preset⟩, heffective, structureSection, hstructure, rules, hrules, shared, hshared, tests, htests,
      coverage, hcoverage, hmodule, hmode, hlocation, hthresholds, hscan, hignore, hrequired, hother, himport, hunused,
      hdetect, hexclusions, hpatterns, hlint, hblackbox, hstrict, hmissing, henabled, hthreshold, hprompt⟩

/-! ## The sections of a preset -/

theorem lookup?_sectionsOf {name : String} (h : name ∈ sectionNames) :
    lookup? (.text name) (sectionsOf s) = lookup? (.text name) s := by
  have hnil : ∀ key, lookup? key ([] : Section) = none := fun _ => rfl
  simp only [sectionNames, List.mem_cons, List.not_mem_nil, or_false] at h
  simp only [sectionsOf, sectionNames]
  cases hstructure : lookup? (.text "structure") s <;> cases hrules : lookup? (.text "rules") s <;>
    cases hprompt : lookup? (.text "error_prompt") s <;> rcases h with rfl | rfl | rfl <;>
      simp [hstructure, hrules, hprompt, lookup?_cons, hnil]

/-- The sections fit when the entries that they are taken from do. -/
theorem fitsAll_sectionsOf (h : Schema.FitsAll sectionsSchema s) : Schema.FitsAll sectionsSchema (sectionsOf s) := by
  simp only [sectionsSchema, Schema.FitsAll] at h ⊢
  rwa [lookup?_sectionsOf (by decide), lookup?_sectionsOf (by decide), lookup?_sectionsOf (by decide)]

/-- In the layout of presets the sections in force are those of the preset with the overrides laid over them. -/
theorem exists_effective_iff {body : Section} (hlayout : (lookup? (.text "preset") data).isSome = true) :
    (∃ preset, effective data place = .ok (body, preset)) ↔
      ∃ fields overrides, data.below place "preset" = .ok fields ∧ data.below place "overrides" = .ok overrides ∧
        unknownKeys overrides = [] ∧ (∀ v ∈ lookup? (.text "name") fields, v.isWritable = true) ∧
          body = mergeEntries (sectionsOf fields) overrides := by
  rw [effective, if_neg (by simpa [Option.isSome_iff_ne_none] using hlayout)]
  cases hfields : data.below place "preset" with
  | error e => simp [bind, Except.bind]
  | ok fields =>
    cases hoverrides : data.below place "overrides" with
    | error e => simp [bind, Except.bind]
    | ok overrides =>
      cases hunknown : unknownKeys overrides with
      | nil =>
        simp only [ok_bind, Except.ok.injEq, exists_and_left, exists_eq_left', hunknown, true_and, bind_eq_ok,
          pure_eq_ok, Prod.mk.injEq, ← exists_presetName_iff]
        constructor
        · rintro ⟨_, name, hname, hbody, -⟩
          exact ⟨⟨name, hname⟩, hbody.symm⟩
        · rintro ⟨⟨name, hname⟩, hbody⟩
          exact ⟨name, name, hname, hbody.symm, rfl⟩
      | cons key rest => simp [bind, Except.bind, hunknown, throw, throwThe, MonadExceptOf.throw]

/-- The overrides of a document have distinct keys as far as maps lead. -/
theorem proper_of_section? {found : Option (Value Unit)} {overrides : Section} (h : section? found = some overrides)
    (hproper : ∀ v ∈ found, v.Proper) : DistinctKeys overrides ∧ ∀ e ∈ overrides, e.2.Proper := by
  rw [← Schema.section?_eq_entriesBelow h]
  cases found with
  | none => exact ⟨.nil, by simp [Schema.entriesBelow]⟩
  | some v =>
    cases hproper v rfl with
    | map distinct values => exact ⟨distinct, values⟩
    | other hmap =>
      cases v with
      | map => exact absurd trivial hmap
      | scalar | list | set | pairs | cycle => exact ⟨.nil, by simp [Schema.entriesBelow]⟩

theorem writable_of_section? {found : Option (Value Unit)} {overrides : Section}
    (h : section? found = some overrides) (hwritable : ∀ v ∈ found, v.isWritable = true) :
    ∀ e ∈ overrides, e.2.isWritable = true := by
  rw [← Schema.section?_eq_entriesBelow h]
  intro e he
  cases found with
  | none => cases he
  | some v =>
    cases v with
    | map mark entries => exact (areWritableEntries_iff.mp (hwritable _ rfl) e he).2
    | scalar | list | set | pairs | cycle => cases he

/-- **Overrides that are accepted with one preset are accepted with every other one that fits**, if they can be
written. -/
theorem exists_effective_of_same_overrides {data written fields : Section} {declared : Except ModulePath.Error String}
    {before : Settings} (hbefore : ofEntries data declared place = .ok before)
    (hlayout : (lookup? (.text "preset") data).isSome = true)
    (hproper : ∀ v ∈ lookup? (.text "overrides") data, v.Proper ∧ v.isWritable = true)
    (hpreset : lookup? (.text "preset") written = some (.map () fields))
    (hfits : Schema.FitsAll sectionsSchema fields)
    (hname : ∀ v ∈ lookup? (.text "name") fields, v.isWritable = true)
    (hsame : written.below place "overrides" = data.below place "overrides") :
    ∃ body preset, effective written place = .ok (body, preset) ∧ Schema.FitsAll sectionsSchema body := by
  obtain ⟨⟨body, preset, heffective, hbody⟩, -⟩ := exists_ofEntries_iff.mp ⟨before, hbefore⟩
  obtain ⟨old, overrides, hold, hoverrides, hunknown, -, rfl⟩ :=
    (exists_effective_iff hlayout).mp ⟨preset, heffective⟩
  obtain ⟨hdistinct, hvalues⟩ := proper_of_section? (below_eq_ok_iff.mp hoverrides) fun v hv => (hproper v hv).1
  have hwritable := writable_of_section? (below_eq_ok_iff.mp hoverrides) fun v hv => (hproper v hv).2
  have hfields : written.below place "preset" = .ok fields := below_eq_ok_iff.mpr (by rw [hpreset]; rfl)
  obtain ⟨preset', heffective'⟩ := (exists_effective_iff (by rw [hpreset]; rfl)).mpr
    ⟨fields, overrides, hfields, hsame.trans hoverrides, hunknown, hname, rfl⟩
  exact ⟨_, preset', heffective', Schema.fitsAll_overlay sectionsSchema (Schema.laidOver_mergeEntries hdistinct _)
    (Schema.laidOver_mergeEntries hdistinct _) hvalues hwritable (fitsAll_sectionsOf hfits) hbody⟩

end LayerLint.Settings
