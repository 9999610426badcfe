import LayerLint.Proofs.Settings.Blank

/-!
# Two layouts of one document

A document with a preset means what it means with the sections in force written out at its top level (`writtenOut`).
`fields` are the settings that sections have: where each stands, and how it is read there.

- A setting is read off what stands at its place in the sections in force (`read_of_mem_fields`), and the settings of
  sections with the paths and the preset are all that there are (`eq_of_fields`). Those that rules depend on make the
  policy (`eq_policy_iff`).
- What overrides leave alone stays as the preset has it (`lookup?_entriesAt_mergeEntries`).
- Both together say what a preset with overrides means (`ofEntries_preset_layout`).
-/

namespace LayerLint.Yaml

variable {ι : Type} {lower upper : List (Scalar × Value ι)}

theorem lookup?_append (key : Scalar) (lower upper : List (Scalar × Value ι)) :
    lookup? key (lower ++ upper) = (lookup? key lower).or (lookup? key upper) := by
  induction lower with
  | nil => rfl
  | cons e rest ih =>
    obtain ⟨k, v⟩ := e
    rw [List.cons_append, lookup?_cons, lookup?_cons, ih]
    split <;> rfl

theorem lookup?_eq_none {name : String} (h : ∀ e ∈ lower, e.1 ≠ .text name) : lookup? (.text name) lower = none := by
  rw [lookup?_eq_none_iff]
  intro e he
  simpa using h e he

end LayerLint.Yaml

namespace LayerLint.Settings

open Yaml Result

/-! ## Documents without a preset -/

/-- The entries of a document that are read alike in both layouts. -/
def otherEntries (data : Section) : Section :=
  data.filter fun e => !(sectionNames ++ ["preset", "overrides"]).any fun name => e.1 == .text name

/-- The document with the sections in force at the top level and without the preset and its overrides. -/
def writtenOut (data preset overrides : Section) : Section :=
  otherEntries data ++ mergeEntries (sectionsOf preset) overrides

variable {data preset overrides low high : Section} {name key place : String} {parents : List String}
  {declared : Except ModulePath.Error String} {s s' : Settings}

theorem lookup?_otherEntries_of_mem (h : name ∈ sectionNames ++ ["preset", "overrides"]) :
    lookup? (.text name) (otherEntries data) = none := by
  refine lookup?_eq_none fun e he heq => ?_
  have hno := (List.mem_filter.mp he).2
  rw [heq, Bool.not_eq_true', List.any_eq_false] at hno
  exact hno name h (beq_self_eq_true _)

theorem lookup?_otherEntries (h : name ∉ sectionNames ++ ["preset", "overrides"]) :
    lookup? (.text name) (otherEntries data) = lookup? (.text name) data := by
  induction data with
  | nil => rfl
  | cons e rest ih =>
    obtain ⟨k, v⟩ := e
    rw [otherEntries] at ih ⊢
    rw [List.filter_cons]
    split
    · rw [lookup?_cons, lookup?_cons, ih]
    · rename_i hdropped
      rw [Bool.not_eq_true, Bool.not_eq_false'] at hdropped
      obtain ⟨n, hn, heq⟩ := List.any_eq_true.mp hdropped
      rw [ih, lookup?_cons, if_neg]
      rw [show k = .text n from eq_of_beq heq, Scalar.sameKey_text, decide_eq_true_iff]
      rintro ⟨⟩
      exact h hn

theorem mem_sectionNames_of_mem_sectionsOf {e : Scalar × Value Unit} (h : e ∈ sectionsOf preset) :
    ∃ name ∈ sectionNames, e.1 = .text name := by
  obtain ⟨name, hname, he⟩ := List.mem_filterMap.mp h
  obtain ⟨v, -, rfl⟩ := Option.map_eq_some_iff.mp he
  exact ⟨name, hname, rfl⟩

theorem mem_sectionNames_of_known (h : unknownKeys overrides = []) {e : Scalar × Value Unit} (he : e ∈ overrides) :
    ∃ name ∈ sectionNames, e.1 = .text name := by
  have hknown := List.filter_eq_nil_iff.mp h e.1 (List.mem_map_of_mem he)
  rw [Bool.not_eq_true, Bool.not_eq_false'] at hknown
  obtain ⟨name, hname, heq⟩ := List.any_eq_true.mp hknown
  exact ⟨name, hname, eq_of_beq heq⟩

/-- The sections in force are sections. -/
theorem lookup?_inForce (hknown : unknownKeys overrides = []) (h : name ∉ sectionNames) :
    lookup? (.text name) (mergeEntries (sectionsOf preset) overrides) = none := by
  refine lookup?_eq_none fun e he heq => ?_
  obtain ⟨n, hn, hkey⟩ : ∃ n ∈ sectionNames, e.1 = .text n := by
    rcases key_of_mem_mergeEntries he with ⟨l, hl, hkey⟩ | ⟨u, hu, hkey⟩
    · exact hkey ▸ mem_sectionNames_of_mem_sectionsOf hl
    · exact hkey ▸ mem_sectionNames_of_known hknown hu
  rw [heq] at hkey
  cases hkey
  exact h hn

theorem lookup?_writtenOut_section (h : name ∈ sectionNames) :
    lookup? (.text name) (writtenOut data preset overrides) =
      lookup? (.text name) (mergeEntries (sectionsOf preset) overrides) := by
  rw [writtenOut, lookup?_append, lookup?_otherEntries_of_mem (List.mem_append_left _ h), Option.none_or]

theorem lookup?_writtenOut_other (hknown : unknownKeys overrides = [])
    (h : name ∉ sectionNames ++ ["preset", "overrides"]) :
    lookup? (.text name) (writtenOut data preset overrides) = lookup? (.text name) data := by
  rw [writtenOut, lookup?_append, lookup?_otherEntries h,
    lookup?_inForce hknown fun hname => h (List.mem_append_left _ hname), Option.or_none]

theorem lookup?_writtenOut_preset (hknown : unknownKeys overrides = []) :
    lookup? (.text "preset") (writtenOut data preset overrides) = none := by
  rw [writtenOut, lookup?_append, lookup?_otherEntries_of_mem (by decide), lookup?_inForce hknown (by decide)]
  rfl

/-- What is in force with a preset. -/
theorem effective_of_preset (hlayout : (lookup? (.text "preset") data).isSome = true)
    (hpreset : data.below place "preset" = .ok preset) (hoverrides : data.below place "overrides" = .ok overrides)
    (hknown : unknownKeys overrides = []) :
    effective data place = (presetName preset).map fun name => (mergeEntries (sectionsOf preset) overrides, name) := by
  rw [effective, if_neg (by simpa [Option.isSome_iff_ne_none] using hlayout), hpreset, hoverrides]
  simp only [bind, Except.bind, hknown]
  cases presetName preset <;> rfl

/-- The name of a preset, if it has one, can be written. -/
def NameWritable (preset : Section) : Prop := ∀ v ∈ lookup? (.text "name") preset, v.isWritable = true

/-- A name that cannot be written is the only one that is not read. -/
theorem presetName_of_not_nameWritable (h : ¬ NameWritable preset) : presetName preset = .error .unwritable := by
  rw [NameWritable, ← exists_presetName_iff, presetName] at h
  rw [presetName]
  split
  · simp_all
  · split
    · simp_all
    · rename_i value hname hfalsy
      simp only [hname, hfalsy, Section.valueText] at h ⊢
      split <;> simp_all [Except.map]

/-- A document is not read where the name of its preset cannot be written. -/
theorem ofEntries_of_not_nameWritable (hlayout : (lookup? (.text "preset") data).isSome = true)
    (hpreset : data.below place "preset" = .ok preset) (hoverrides : data.below place "overrides" = .ok overrides)
    (hknown : unknownKeys overrides = []) (hname : ¬ NameWritable preset) :
    ofEntries data declared place = .error .unwritable := by
  rw [ofEntries, effective_of_preset hlayout hpreset hoverrides hknown, presetName_of_not_nameWritable hname]
  rfl

/-- **A document with a preset is read like the one with the sections in force at the top level.** -/
theorem ofEntries_writtenOut (hlayout : (lookup? (.text "preset") data).isSome = true)
    (hpreset : data.below place "preset" = .ok preset) (hoverrides : data.below place "overrides" = .ok overrides)
    (hknown : unknownKeys overrides = []) (hname : NameWritable preset) :
    ofEntries (writtenOut data preset overrides) declared place =
      (ofEntries data declared place).map fun s => { s with preset := none } := by
  obtain ⟨name, hread⟩ := exists_presetName_iff.mpr hname
  have heffective := effective_of_preset hlayout hpreset hoverrides hknown
  rw [hread] at heffective
  have hmatches : Matches (SameButPreset fun _ found => found = none) (ofEntries data declared place)
      (ofEntries (writtenOut data preset overrides) declared place) := by
    refine matches_ofEntries ?_ fun key hkey => (lookup?_writtenOut_other hknown ?_).symm
    · rw [heffective, effective_of_none (lookup?_writtenOut_preset hknown)]
      refine .ok ⟨Schema.alikeAll_of_lookup fun f hf => ?_, rfl⟩
      have hname := Schema.sectionNames_of_mem_sectionsSchema f hf
      rw [lookup?_sectionsOf hname, lookup?_writtenOut_section hname]
    · revert key
      decide
  generalize ofEntries data declared place = x,
    ofEntries (writtenOut data preset overrides) declared place = y at hmatches
  cases hmatches with
  | ok h => rw [h.2, h.1]; rfl
  | error e => rfl

/-! ## The settings of sections -/

/-- A setting of a section: the keys that lead to it, how it is read off the entries beside it, and where it is found in
the settings and, if rules depend on it, in their policy. -/
structure Field where
  {Setting : Type}
  parents : List String
  key : String
  read : Section → String → Except SettingsError Setting
  get : Settings → Setting
  inPolicy? : Option (Policy → Setting)

/-- The settings that sections have. -/
def fields : List Field :=
  [⟨["structure"], "required_directories", requiredDirectoriesOf, (·.requiredDirectories),
      some (·.requiredDirectories)⟩,
    ⟨["structure"], "allow_other_directories", (·.truth · "allow_other_directories" true), (·.allowOtherDirectories),
      some (·.allowOtherDirectories)⟩,
    ⟨["rules"], "directories_import", directoriesImportOf, (·.directoriesImport), some (·.directoriesImport)⟩,
    ⟨["rules"], "detect_unused", (·.truth · "detect_unused" false), (·.detectUnused), some (·.detectUnused)⟩,
    ⟨["rules", "shared_external_imports"], "detect", (·.truth · "detect" false), (·.detectSharedImports),
      some (·.detectSharedImports)⟩,
    ⟨["rules", "shared_external_imports"], "mode", sharedModeOf, (·.sharedImportsMode), none⟩,
    ⟨["rules", "shared_external_imports"], "exclusions", (·.texts · "exclusions"), (·.sharedImportExclusions),
      some (·.sharedImportExclusions)⟩,
    ⟨["rules", "shared_external_imports"], "exclusion_patterns", (·.texts · "exclusion_patterns"),
      (·.sharedImportExclusionPatterns), some (·.sharedImportExclusionPatterns)⟩,
    ⟨["rules", "test_files"], "lint", (·.truth · "lint" false), (·.lintTestFiles), some (·.lintTestFiles)⟩,
    ⟨["rules", "test_files"], "location", testLocationOf, (·.testLocation), some (·.testLocation)⟩,
    ⟨["rules", "test_files"], "require_blackbox", (·.truth · "require_blackbox" false), (·.requireBlackboxTests),
      some (·.requireBlackboxTests)⟩,
    ⟨["rules", "test_files"], "strict_naming", (·.truth · "strict_naming" false), (·.strictTestNaming),
      some (·.strictTestNaming)⟩,
    ⟨["rules", "test_files"], "flag_missing_tests", (·.truth · "flag_missing_tests" true), (·.flagMissingTests),
      some (·.flagMissingTests)⟩,
    ⟨["rules", "test_coverage"], "enabled", (·.truth · "enabled" false), (·.coverageEnabled),
      some (·.coverageEnabled)⟩,
    ⟨["rules", "test_coverage"], "threshold", (·.number · "threshold" (Binary64.zero false)), (·.coverageThreshold),
      some (·.coverageThreshold)⟩,
    ⟨["rules", "test_coverage"], "package_thresholds", packageThresholdsOf, (·.packageThresholds),
      some (·.packageThresholds)⟩,
    ⟨["error_prompt"], "enabled", (·.truth · "enabled" false), (·.errorPrompt.enabled), none⟩,
    ⟨["error_prompt"], "architectural_goals", (·.text · "architectural_goals"), (·.errorPrompt.architecturalGoals),
      none⟩,
    ⟨["error_prompt"], "principles", (·.texts · "principles"), (·.errorPrompt.principles), none⟩,
    ⟨["error_prompt"], "refactoring_guidance", (·.text · "refactoring_guidance"),
      (·.errorPrompt.refactoringGuidance), none⟩,
    ⟨["error_prompt"], "coverage_guidance", (·.text · "coverage_guidance"), (·.errorPrompt.coverageGuidance), none⟩,
    ⟨["error_prompt"], "blackbox_testing_guidance", (·.text · "blackbox_testing_guidance"),
      (·.errorPrompt.blackboxTestingGuidance), none⟩]

/-- The entries that keys lead to, none where they do not lead through maps. -/
def Section.entriesAt : List String → Section → Section
  | [], s => s
  | parent :: rest, s => entriesAt rest (Schema.entriesBelow (lookup? (.text parent) s))

/-- Settings that agree in every field, in the paths and in the preset are equal. -/
theorem eq_of_fields (hfields : ∀ f ∈ fields, f.get s = f.get s')
    (hmodule : s.modulePath = s'.modulePath) (hscan : s.scanPaths = s'.scanPaths)
    (hignore : s.ignorePaths = s'.ignorePaths) (hpreset : s.preset = s'.preset) : s = s' := by
  have hprompt : s.errorPrompt = s'.errorPrompt := by
    cases hs : s.errorPrompt
    cases hs' : s'.errorPrompt
    simp_all [fields]
  cases s
  cases s'
  simp_all [fields]

/-- **The policy has the settings that rules depend on as they are**, and beside the path of the module nothing else. -/
theorem eq_policy_iff {policy : Policy} : policy = s.policy ↔
    policy.modulePath = s.modulePath ∧ ∀ f ∈ fields, ∀ inPolicy ∈ f.inPolicy?, inPolicy policy = f.get s := by
  constructor
  · rintro rfl
    simp [fields, Settings.policy]
  · intro h
    cases policy
    simp_all [fields, Settings.policy]

/-- A field is read off nothing but what stands at its key. -/
theorem read_congr {a b : Section} : ∀ f ∈ fields, lookup? (.text f.key) a = lookup? (.text f.key) b →
    f.read a place = f.read b place := by
  simp only [fields, List.forall_mem_cons]
  exact ⟨fun h => requiredDirectories_congr (congrArg _ h), fun h => truth_congr h _,
    fun h => directoriesImport_congr (congrArg _ h), fun h => truth_congr h _,
    fun h => truth_congr h _, sharedMode_congr, texts_congr, texts_congr,
    fun h => truth_congr h _, testLocation_congr, fun h => truth_congr h _, fun h => truth_congr h _,
    fun h => truth_congr h _,
    fun h => truth_congr h _, fun h => number_congr h _, fun h => packageThresholds_congr (congrArg _ h),
    fun h => truth_congr h _, text_congr, texts_congr, text_congr, text_congr, text_congr,
    List.forall_mem_nil _⟩

theorem entriesBelow_of_below {entries : Section} (h : data.below place key = .ok entries) :
    Schema.entriesBelow (lookup? (.text key) data) = entries :=
  Schema.section?_eq_entriesBelow (below_eq_ok_iff.mp h)

/-- **The fields of accepted settings are read off the sections in force.** -/
theorem read_of_mem_fields {body : Section} {name : Option String} (hok : ofEntries data declared place = .ok s)
    (heffective : effective data place = .ok (body, name)) :
    ∀ f ∈ fields, f.read (body.entriesAt f.parents) place = .ok (f.get s) := by
  simp only [ofEntries, heffective, bind_eq_ok, pure_eq_ok, promptOf, Except.ok.injEq, exists_eq_left'] at hok
  obtain ⟨structureSection, hstructure, rules, hrules, shared, hshared, tests, htests, coverage, hcoverage, hok⟩ := hok
  obtain ⟨_, _, _, hmode, _, hlocation, _, hthresholds, _, _, _, _, _, hrequired, _, hother, hok⟩ := hok
  obtain ⟨_, himport, _, hunused, _, hdetect, _, hexclusions, _, hpatterns, hok⟩ := hok
  obtain ⟨_, hlint, _, hblackbox, _, hstrict, _, hmissing, _, henabled, _, hthreshold, hok⟩ := hok
  obtain ⟨prompt, hprompt, _, ⟨_, hshown, _, hgoals, _, hprinciples, _, hrefactoring, _, hguidance,
    _, htesting, hresult⟩, hok⟩ := hok
  subst hok hresult
  obtain rfl := entriesBelow_of_below hstructure
  obtain rfl := entriesBelow_of_below hrules
  obtain rfl := entriesBelow_of_below hshared
  obtain rfl := entriesBelow_of_below htests
  obtain rfl := entriesBelow_of_below hcoverage
  obtain rfl := entriesBelow_of_below hprompt
  simp only [fields, List.forall_mem_cons]
  exact ⟨hrequired, hother, himport, hunused, hdetect, hmode, hexclusions, hpatterns, hlint, hlocation, hblackbox,
    hstrict, hmissing, henabled, hthreshold, hthresholds, hshown, hgoals, hprinciples, hrefactoring, hguidance,
    htesting, List.forall_mem_nil _⟩

/-! ## What overrides leave alone -/

/-- Overrides have nothing at a key behind others, and no more than maps at these. -/
def Untouched (key : String) : List String → Section → Prop
  | [], s => lookup? (.text key) s = none
  | parent :: rest, s => lookup? (.text parent) s = none ∨
      ∃ mark entries, lookup? (.text parent) s = some (.map mark entries) ∧ Untouched key rest entries

/-- **What overrides leave alone stays as it is below them.** -/
theorem lookup?_entriesAt_mergeEntries (hdistinct : DistinctKeys high) (hproper : ∀ e ∈ high, e.2.Proper)
    (h : Untouched key parents high) :
    lookup? (.text key) (Section.entriesAt parents (mergeEntries low high)) =
      lookup? (.text key) (Section.entriesAt parents low) := by
  induction parents generalizing low high with
  | nil =>
    rw [Untouched] at h
    rw [Section.entriesAt, Section.entriesAt, lookup?_mergeEntries hdistinct, h, overlay]
  | cons parent rest ih =>
    rw [Section.entriesAt, Section.entriesAt, lookup?_mergeEntries hdistinct]
    rcases h with hnone | ⟨mark, entries, hmap, hrest⟩
    · rw [hnone, overlay]
    · obtain ⟨hentries, hvalues⟩ := Schema.distinctKeys_of_proper hproper hmap
      rw [hmap, Schema.overlay_map hentries]
      exact ih hentries hvalues hrest

/-- The fields that overrides leave alone are those that the preset has. -/
theorem read_untouched (hdistinct : DistinctKeys high) (hproper : ∀ e ∈ high, e.2.Proper) {f : Field}
    (hf : f ∈ fields) (h : Untouched f.key f.parents high) :
    f.read (Section.entriesAt f.parents (mergeEntries low high)) place =
      f.read (Section.entriesAt f.parents low) place :=
  read_congr f hf (lookup?_entriesAt_mergeEntries hdistinct hproper h)

/-- The name of the preset does not depend on the overrides. -/
theorem preset_of_ofEntries {body : Section} {name : Option String} (hok : ofEntries data declared place = .ok s)
    (heffective : effective data place = .ok (body, name)) : s.preset = name := by
  simp only [ofEntries, heffective, bind_eq_ok, pure_eq_ok] at hok
  grind

/-- **What a preset with overrides means.** The document is read like the one with the sections in force written out,
but for the name of the preset, unless this name cannot be written; then it is not read. Settings whose places the
overrides leave alone are those without overrides. -/
theorem ofEntries_preset_layout (hlayout : (lookup? (.text "preset") data).isSome = true)
    (hpreset : data.below place "preset" = .ok preset) (hoverrides : data.below place "overrides" = .ok overrides)
    (hknown : unknownKeys overrides = []) (hproper : ∀ v ∈ lookup? (.text "overrides") data, v.Proper)
    (declared : Except ModulePath.Error String) :
    (NameWritable preset → ofEntries (writtenOut data preset overrides) declared place =
        (ofEntries data declared place).map (fun s => { s with preset := none })) ∧
      (¬ NameWritable preset → ofEntries data declared place = .error .unwritable) ∧
      ∀ s s', ofEntries data declared place = .ok s →
        ofEntries (data.set "overrides" (some (.map () []))) declared place = .ok s' →
          s.modulePath = s'.modulePath ∧ s.scanPaths = s'.scanPaths ∧ s.ignorePaths = s'.ignorePaths ∧
            s.preset = s'.preset ∧ ∀ f ∈ fields, Untouched f.key f.parents overrides → f.get s = f.get s' := by
  refine ⟨ofEntries_writtenOut hlayout hpreset hoverrides hknown,
    ofEntries_of_not_nameWritable hlayout hpreset hoverrides hknown, fun s s' hs hs' => ?_⟩
  have hkept : ∀ {name}, name ≠ "overrides" →
      lookup? (.text name) (data.set "overrides" (some (.map () []))) = lookup? (.text name) data :=
    fun hname => (lookup?_set _).trans (if_neg hname)
  obtain ⟨name, hread⟩ : ∃ name, presetName preset = .ok name := by
    refine exists_presetName_iff.mpr (Classical.byContradiction fun hnot => ?_)
    rw [ofEntries_of_not_nameWritable hlayout hpreset hoverrides hknown hnot] at hs
    cases hs
  have heffective : effective data place = .ok (mergeEntries (sectionsOf preset) overrides, name) := by
    rw [effective_of_preset hlayout hpreset hoverrides hknown, hread]
    rfl
  have heffective' : effective (data.set "overrides" (some (.map () []))) place = .ok (sectionsOf preset, name) := by
    have hempty : (data.set "overrides" (some (.map () []))).below place "overrides" = .ok [] := by
      rw [below_eq, lookup?_set, if_pos rfl]
      rfl
    rw [effective_of_preset (by rwa [hkept (by simp)]) (by rwa [below_congr (congrArg _ (hkept (by simp)))]) hempty rfl,
      hread]
    rfl
  obtain ⟨hmodule, hscan, hignore⟩ := ofEntries_eq_ok hs
  obtain ⟨hmodule', hscan', hignore'⟩ := ofEntries_eq_ok hs'
  rw [modulePathOf, text_congr (hkept (by simp)), ← modulePathOf, hmodule] at hmodule'
  rw [textsOr_congr (hkept (by simp)), hscan] at hscan'
  rw [textsOr_congr (hkept (by simp)), hignore] at hignore'
  refine ⟨Except.ok.inj hmodule', Except.ok.inj hscan', Except.ok.inj hignore',
    (preset_of_ofEntries hs heffective).trans (preset_of_ofEntries hs' heffective').symm, fun f hf huntouched => ?_⟩
  obtain ⟨hdistinct, hvalues⟩ := proper_of_section? (below_eq_ok_iff.mp hoverrides) hproper
  have hread := read_of_mem_fields hs heffective f hf
  rw [read_untouched hdistinct hvalues hf huntouched, read_of_mem_fields hs' heffective' f hf] at hread
  exact (Except.ok.inj hread).symm

/-- A document whose overrides look at test files and leave alone that the preset looks for unused packages. -/
def testingDocument : Section :=
  [(.text "module", .text "m"),
    (.text "preset", .record [("rules", .record [("detect_unused", .scalar () (.bool true))])]),
    (.text "overrides", .record [("rules", .record [("test_files", .record [("lint", .scalar () (.bool true))])])])]

theorem ofEntries_preset_layout_testing :
    ∃ s s', ofEntries testingDocument (.ok "") "" = .ok s ∧
      ofEntries (testingDocument.set "overrides" (some (.map () []))) (.ok "") "" = .ok s' ∧
        s.detectUnused = s'.detectUnused ∧ s.lintTestFiles ≠ s'.lintTestFiles := by
  have hread := exists_of_any (ofEntries testingDocument (.ok "") "") (·.lintTestFiles) (by decide +kernel)
  have hread' := exists_of_any (ofEntries (testingDocument.set "overrides" (some (.map () []))) (.ok "") "")
    (! ·.lintTestFiles) (by decide +kernel)
  have hproper : ∀ v ∈ lookup? (.text "overrides") testingDocument, v.Proper := by
    rintro v ⟨⟩
    refine .map (.cons (by simp) .nil) (List.forall_mem_singleton.mpr ?_)
    refine .map (.cons (by simp) .nil) (List.forall_mem_singleton.mpr ?_)
    exact .map (.cons (by simp) .nil) (List.forall_mem_singleton.mpr (.other id))
  obtain ⟨s, hs, hlint⟩ := hread
  obtain ⟨s', hs', hlint'⟩ := hread'
  obtain ⟨-, -, -, -, hkept⟩ := (ofEntries_preset_layout rfl rfl rfl rfl hproper (.ok "")).2.2 s s' hs hs'
  refine ⟨s, s', hs, hs', hkept ⟨["rules"], "detect_unused", (·.truth · "detect_unused" false), (·.detectUnused),
    some (·.detectUnused)⟩ (by simp [fields]) (.inr ⟨_, _, rfl, rfl⟩), ?_⟩
  intro hsame
  rw [← hsame, hlint] at hlint'
  cases hlint'

/-- The section of a preset whose name has too many digits to be written. -/
def hugelyNamed : Section := [(.text "name", .scalar () (.int (Int.ofNat (Nat.pow 16 3572))))]

/-- A document with this preset. -/
def hugelyNamedDocument : Section := [(.text "module", .text "m"), (.text "preset", .map () hugelyNamed)]

/-- A preset whose name cannot be written is not read, whatever its sections are. -/
theorem ofEntries_preset_layout_unwritable :
    ¬ ∀ (data preset overrides : Section) (place : String) (declared : Except ModulePath.Error String),
      (lookup? (.text "preset") data).isSome = true → data.below place "preset" = .ok preset →
        data.below place "overrides" = .ok overrides → unknownKeys overrides = [] →
        ofEntries (writtenOut data preset overrides) declared place =
          (ofEntries data declared place).map fun s => { s with preset := none } := by
  intro hall
  have hname : ¬ NameWritable hugelyNamed := fun h => absurd (h _ rfl) (by decide +kernel)
  have hstops : ofEntries hugelyNamedDocument (.ok "") "" = .error .unwritable :=
    ofEntries_of_not_nameWritable rfl rfl (rfl : hugelyNamedDocument.below "" "overrides" = .ok []) rfl hname
  have hread : (ofEntries (writtenOut hugelyNamedDocument hugelyNamed []) (.ok "") "").isOk = true := by decide +kernel
  rw [hall hugelyNamedDocument hugelyNamed [] "" (.ok "") rfl rfl rfl rfl, hstops] at hread
  cases hread

end LayerLint.Settings
