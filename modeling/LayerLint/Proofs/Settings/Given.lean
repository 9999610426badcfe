import LayerLint.Proofs.OrderedMap
import LayerLint.Proofs.Settings.Layout

/-!
# Settings that are given

`documented` are the settings that sections have with the values that stand for them, and `documentedPaths` the paths
to scan and to ignore. A document without a preset in which each of them has a value of its type, or none, is accepted,
and every setting that is given is the one that is given, also in the policy (`ofEntries_honours`) — but for an empty
list of paths, which counts as none.

- Every setting of a section is read as its value stands for (`reads_of_mem_documented`), so in a document that is
  accepted it is honoured (`honoured_of_mem_documented`).
- A document is accepted when its sections are maps and every field can be read (`exists_ofEntries_of_fields`), as they
  are when their values have their types (`exists_ofEntries_of_handWritten`).
- Paths are honoured unless the list is empty (`honoured_paths_iff`).
-/

namespace LayerLint.Settings

open Yaml Result

/-! ## Values that stand for settings -/

/-- The value is a list of these texts. A list of no pairs is a list of no texts. -/
def GivesTexts (v : Value Unit) (items : List String) : Prop :=
  v = .texts items ∨ v = .pairs () [] ∧ items = []

/-- The value is this floating-point number, or a whole number to which it is the nearest. -/
def GivesNumber (v : Value Unit) (x : Binary64) : Prop :=
  v = .scalar () (.float x) ∨ ∃ n, v = .int n ∧ Binary64.ofInt? n = some x

/-- The value stands for a setting, or it is null and stands for the blank one. -/
def OrNull {α : Type} (gives : Value Unit → α → Prop) (blank : α) (v : Value Unit) (a : α) : Prop :=
  gives v a ∨ v = .scalar () .null ∧ a = blank

/-- The value is a map whose keys are texts and whose values stand for those of this one, in their order. -/
def GivesMap {β : Type} (gives : Value Unit → β → Prop) (v : Value Unit) (m : OrderedMap String β) : Prop :=
  ∃ entries, v = .map () entries ∧
    List.Forall₂ (fun e entry => e.1 = .text entry.1 ∧ gives e.2 entry.2) entries m.entries

/-- A setting with the values that stand for it and with what holds without one. -/
structure Documented extends Field where
  Gives : Value Unit → Setting → Prop
  default : Setting

namespace Documented

/-- A truth value. -/
def truth (parents : List String) (key : String) (default : Bool) (get : Settings → Bool)
    (inPolicy? : Option (Policy → Bool)) : Documented :=
  ⟨⟨parents, key, (·.truth · key default), get, inPolicy?⟩, fun v b => v = .bool b, default⟩

/-- A text. -/
def text (parents : List String) (key : String) (get : Settings → String) : Documented :=
  ⟨⟨parents, key, (·.text · key), get, none⟩, fun v word => v = .text word, ""⟩

/-- A list of texts. -/
def texts (parents : List String) (key : String) (get : Settings → List String)
    (inPolicy? : Option (Policy → List String)) : Documented :=
  ⟨⟨parents, key, (·.texts · key), get, inPolicy?⟩, GivesTexts, []⟩

/-- A list of paths with a default of its own. -/
def paths (key : String) (default : List String) (get : Settings → List String) : Documented :=
  ⟨⟨[], key, (·.textsOr · key default), get, none⟩, GivesTexts, default⟩

end Documented

/-- The settings that sections have. -/
def documented : List Documented :=
  [⟨⟨["structure"], "required_directories", requiredDirectoriesOf, (·.requiredDirectories),
        some (·.requiredDirectories)⟩,
      GivesMap (OrNull (fun v purpose => v = .text purpose) ""), .empty⟩,
    .truth ["structure"] "allow_other_directories" true (·.allowOtherDirectories) (some (·.allowOtherDirectories)),
    ⟨⟨["rules"], "directories_import", directoriesImportOf, (·.directoriesImport), some (·.directoriesImport)⟩,
      GivesMap (OrNull GivesTexts []), .empty⟩,
    .truth ["rules"] "detect_unused" false (·.detectUnused) (some (·.detectUnused)),
    .truth ["rules", "shared_external_imports"] "detect" false (·.detectSharedImports)
      (some (·.detectSharedImports)),
    ⟨⟨["rules", "shared_external_imports"], "mode", sharedModeOf, (·.sharedImportsMode), none⟩,
      fun v mode => v = .text mode.name, .warn⟩,
    .texts ["rules", "shared_external_imports"] "exclusions" (·.sharedImportExclusions)
      (some (·.sharedImportExclusions)),
    .texts ["rules", "shared_external_imports"] "exclusion_patterns" (·.sharedImportExclusionPatterns)
      (some (·.sharedImportExclusionPatterns)),
    .truth ["rules", "test_files"] "lint" false (·.lintTestFiles) (some (·.lintTestFiles)),
    ⟨⟨["rules", "test_files"], "location", testLocationOf, (·.testLocation), some (·.testLocation)⟩,
      fun v location => v = .text location.name, .colocated⟩,
    .truth ["rules", "test_files"] "require_blackbox" false (·.requireBlackboxTests) (some (·.requireBlackboxTests)),
    .truth ["rules", "test_files"] "strict_naming" false (·.strictTestNaming) (some (·.strictTestNaming)),
    .truth ["rules", "test_files"] "flag_missing_tests" true (·.flagMissingTests) (some (·.flagMissingTests)),
    .truth ["rules", "test_coverage"] "enabled" false (·.coverageEnabled) (some (·.coverageEnabled)),
    ⟨⟨["rules", "test_coverage"], "threshold", (·.number · "threshold" (Binary64.zero false)),
      (·.coverageThreshold), some (·.coverageThreshold)⟩, GivesNumber, Binary64.zero false⟩,
    ⟨⟨["rules", "test_coverage"], "package_thresholds", packageThresholdsOf, (·.packageThresholds),
      some (·.packageThresholds)⟩, GivesMap GivesNumber, .empty⟩,
    .truth ["error_prompt"] "enabled" false (·.errorPrompt.enabled) none,
    .text ["error_prompt"] "architectural_goals" (·.errorPrompt.architecturalGoals),
    .texts ["error_prompt"] "principles" (·.errorPrompt.principles) none,
    .text ["error_prompt"] "refactoring_guidance" (·.errorPrompt.refactoringGuidance),
    .text ["error_prompt"] "coverage_guidance" (·.errorPrompt.coverageGuidance),
    .text ["error_prompt"] "blackbox_testing_guidance" (·.errorPrompt.blackboxTestingGuidance)]

/-- The paths to scan and to ignore. -/
def documentedPaths : List Documented :=
  [.paths "scan_paths" standardScanPaths (·.scanPaths), .paths "ignore_paths" standardIgnorePaths (·.ignorePaths)]

theorem map_toField_documented : documented.map (·.toField) = fields := by
  rfl

/-! ## Reading what is given -/

variable {a data body : Section} {key place : String} {parents : List String} {v : Value Unit} {s : Settings}
  {declared : Except ModulePath.Error String} {name : Option String}

/-- The setting is read as its value stands for, and as the default without one. -/
structure Documented.Reads (d : Documented) : Prop where
  given : ∀ {a : Section} {place : String} {v : Value Unit} {x : d.Setting}, a.setting? d.key = some v →
    d.Gives v x → d.read a place = .ok x
  absent : ∀ {a : Section} {place : String}, a.setting? d.key = none → d.read a place = .ok d.default

theorem asTexts?_of_gives {items : List String} (h : GivesTexts v items) : Section.asTexts? v = some items := by
  rcases h with rfl | ⟨rfl, rfl⟩
  · exact Section.asTexts?_texts items
  · rfl

theorem numberOf_of_gives {x : Binary64} (h : GivesNumber v x) : Section.numberOf place key v = .ok x := by
  rcases h with rfl | ⟨n, rfl, hn⟩
  · rfl
  · simp only [Value.int, Section.numberOf, hn]

theorem texts_of_gives {items : List String} (h : a.setting? key = some v) (hv : GivesTexts v items) :
    a.texts place key = .ok items := by
  simp only [Section.texts, h, asTexts?_of_gives hv]

theorem texts_of_absent (h : a.setting? key = none) : a.texts place key = .ok [] := by
  rw [Section.texts, h]

theorem text_of_absent (h : a.setting? key = none) : a.text place key = .ok "" := by
  rw [Section.text, h]

theorem below_of_map {entries : Section} (h : a.setting? key = some (.map () entries)) :
    a.below place key = .ok entries := by
  rw [Section.below, h]

theorem below_of_absent (h : a.setting? key = none) : a.below place key = .ok [] := by
  rw [Section.below, h]

/-- A text that is read at a key where there is one. -/
theorem text_of_text {word : String} (h : a.setting? key = some (.text word)) : a.text place key = .ok word := by
  rw [Section.text, h]
  rfl

theorem reads_truth (parents : List String) (key : String) (default : Bool) (get : Settings → Bool)
    (inPolicy? : Option (Policy → Bool)) : (Documented.truth parents key default get inPolicy?).Reads where
  given {a place v b} h hv := by
    obtain rfl : v = .bool b := hv
    show a.truth place key default = .ok b
    rw [Section.truth, show a.setting? key = some (.bool b) from h]
    rfl
  absent {a place} h := by
    show a.truth place key default = .ok default
    rw [Section.truth, show a.setting? key = none from h]

theorem reads_text (parents : List String) (key : String) (get : Settings → String) :
    (Documented.text parents key get).Reads where
  given h hv := text_of_text (h.trans (congrArg some hv))
  absent h := text_of_absent h

theorem reads_texts (parents : List String) (key : String) (get : Settings → List String)
    (inPolicy? : Option (Policy → List String)) : (Documented.texts parents key get inPolicy?).Reads where
  given := texts_of_gives
  absent := texts_of_absent

section Maps

variable {β : Type} {gives : Value Unit → β → Prop} {entries : Section} {m : OrderedMap String β}

/-- Entries that are read one by one give what they stand for. -/
theorem mapM_of_gives {read : Scalar × Value Unit → Except SettingsError (String × β)}
    (hread : ∀ {word v b}, gives v b → read (.text word, v) = .ok (word, b))
    (h : List.Forall₂ (fun e entry => e.1 = .text entry.1 ∧ gives e.2 entry.2) entries m.entries) :
    entries.mapM read = .ok m.entries := by
  refine mapM_eq_ok_iff.mpr (h.imp ?_)
  rintro ⟨key, v⟩ ⟨word, b⟩ ⟨rfl, hv⟩
  exact hread hv

end Maps

theorem requiredDirectories_of_gives {m : OrderedMap String String} (h : a.setting? "required_directories" = some v)
    (hv : GivesMap (OrNull (fun v purpose => v = .text purpose) "") v m) : requiredDirectoriesOf a place = .ok m := by
  obtain ⟨entries, rfl, hentries⟩ := hv
  rw [requiredDirectoriesOf, below_of_map h, ok_bind, mapM_of_gives ?_ hentries, ok_bind, OrderedMap.ofList_entries]
  · rfl
  · rintro word v purpose (rfl | ⟨rfl, rfl⟩) <;> rfl

theorem directoriesImport_of_gives {m : OrderedMap String (List String)}
    (h : a.setting? "directories_import" = some v) (hv : GivesMap (OrNull GivesTexts []) v m) :
    directoriesImportOf a place = .ok m := by
  obtain ⟨entries, rfl, hentries⟩ := hv
  rw [directoriesImportOf, below_of_map h, ok_bind, mapM_of_gives ?_ hentries, ok_bind, OrderedMap.ofList_entries]
  · rfl
  · rintro word v items ((rfl | ⟨rfl, rfl⟩) | ⟨rfl, rfl⟩)
    · have htexts := Section.asTexts?_texts items
      simp only [Value.texts] at htexts ⊢
      simp only [importsOf.eq_def, htexts]
      rfl
    · rfl
    · rfl

theorem packageThresholds_of_gives {m : OrderedMap String Binary64} (h : a.setting? "package_thresholds" = some v)
    (hv : GivesMap GivesNumber v m) : packageThresholdsOf a place = .ok m := by
  obtain ⟨entries, rfl, hentries⟩ := hv
  rw [packageThresholdsOf, below_of_map h, ok_bind, mapM_of_gives ?_ hentries, ok_bind, OrderedMap.ofList_entries]
  · rfl
  · intro word v x hx
    simp only [numberOf_of_gives hx, ok_bind]
    rfl

theorem sharedMode_of_text {mode : SharedImportsMode} (h : a.setting? "mode" = some (.text mode.name)) :
    sharedModeOf a place = .ok mode := by
  rw [sharedModeOf, text_of_text h, ok_bind]
  cases mode <;> rfl

theorem testLocation_of_text {location : TestLocation} (h : a.setting? "location" = some (.text location.name)) :
    testLocationOf a place = .ok location := by
  rw [testLocationOf, text_of_text h, ok_bind]
  cases location <;> rfl

/-- **Every setting of a section is read as its value stands for.** -/
theorem reads_of_mem_documented : ∀ d ∈ documented, d.Reads := by
  simp only [documented, List.forall_mem_cons]
  refine ⟨⟨requiredDirectories_of_gives, fun h => ?_⟩, reads_truth .., ⟨directoriesImport_of_gives, fun h => ?_⟩,
    reads_truth .., reads_truth .., ⟨fun h hv => sharedMode_of_text (h.trans (congrArg some hv)), fun h => ?_⟩,
    reads_texts .., reads_texts .., reads_truth ..,
    ⟨fun h hv => testLocation_of_text (h.trans (congrArg some hv)), fun h => ?_⟩, reads_truth .., reads_truth ..,
    reads_truth .., reads_truth .., ⟨fun h hv => ?_, fun h => ?_⟩, ⟨packageThresholds_of_gives, fun h => ?_⟩,
    reads_truth .., reads_text .., reads_texts .., reads_text .., reads_text .., reads_text .., List.forall_mem_nil _⟩
  · show requiredDirectoriesOf _ _ = _
    rw [requiredDirectoriesOf, below_of_absent h]
    rfl
  · show directoriesImportOf _ _ = _
    rw [directoriesImportOf, below_of_absent h]
    rfl
  · show sharedModeOf _ _ = _
    rw [sharedModeOf, text_of_absent h]
    rfl
  · show testLocationOf _ _ = _
    rw [testLocationOf, text_of_absent h]
    rfl
  · show Section.number _ _ _ _ = _
    rw [Section.number, show Section.setting? _ "threshold" = _ from h]
    exact numberOf_of_gives hv
  · show Section.number _ _ _ _ = _
    rw [Section.number, show Section.setting? _ "threshold" = none from h]
  · show packageThresholdsOf _ _ = _
    rw [packageThresholdsOf, below_of_absent h]
    rfl

/-! ## Documents that give settings -/

/-- What stands at the place of the setting. -/
def Documented.found (d : Documented) (data : Section) : Option (Value Unit) :=
  (data.entriesAt d.parents).setting? d.key

/-- The document has a value of the type of the setting. -/
def Documented.IsGiven (d : Documented) (data : Section) : Prop :=
  ∃ v x, d.found data = some v ∧ d.Gives v x

/-- The settings have this value of a field, and so has their policy if rules depend on it. -/
def Field.Has (f : Field) (s : Settings) (x : f.Setting) : Prop :=
  f.get s = x ∧ ∀ inPolicy ∈ f.inPolicy?, inPolicy s.policy = x

/-- The settings have the value that is given, and the default without one. -/
structure Documented.Honoured (d : Documented) (data : Section) (s : Settings) : Prop where
  given : ∀ {v : Value Unit} {x : d.Setting}, d.found data = some v → d.Gives v x → d.Has s x
  absent : d.found data = none → d.Has s d.default

/-- What the settings have of a field, the policy has. -/
theorem has_get {f : Field} (hf : f ∈ fields) : f.Has s (f.get s) := ⟨rfl, (eq_policy_iff.mp rfl).2 f hf⟩

theorem has_paths {default paths : List String} {get : Settings → List String} (h : get s = paths) :
    (Documented.paths key default get).Has s paths :=
  ⟨h, fun _ hnone => by cases hnone⟩

/-- A document without a preset: its sections are maps, the settings have values of their types, and the path of the
module is not empty. Each of them may be absent or null, but the path of the module only if the project declares
one. -/
structure IsHandWritten (data : Section) (declared : Except ModulePath.Error String) : Prop where
  preset : lookup? (.text "preset") data = none
  sections : ∀ p ∈ sectionPlaces, (data.entriesAt p.1).setting? p.2 = none ∨
    ∃ entries, (data.entriesAt p.1).setting? p.2 = some (.map () entries)
  settings : ∀ d ∈ documented ++ documentedPaths, d.found data = none ∨ d.IsGiven data
  modulePath : (data.setting? "module" = none ∧ ∃ path, declared = .ok path) ∨
    ∃ path, path ≠ "" ∧ data.setting? "module" = some (.text path)

theorem section?_of_map (h : a.setting? key = none ∨ ∃ entries, a.setting? key = some (.map () entries)) :
    ∃ entries, section? (lookup? (.text key) a) = some entries := by
  rcases h with h | ⟨entries, h⟩
  · exact ⟨[], below_eq_ok_iff.mp (below_of_absent h : a.below "" key = .ok [])⟩
  · exact ⟨entries, below_eq_ok_iff.mp (below_of_map h : a.below "" key = .ok entries)⟩

/-- **A document is accepted when its sections are maps and every field can be read.** -/
theorem exists_ofEntries_of_fields (heffective : effective data place = .ok (body, name))
    (hsections : ∀ p ∈ sectionPlaces, ∃ entries, section? (lookup? (.text p.2) (body.entriesAt p.1)) = some entries)
    (hfields : ∀ f ∈ fields, ∃ x, f.read (body.entriesAt f.parents) place = .ok x)
    (hmodule : ∃ path, modulePathOf data declared place = .ok path)
    (hscan : ∃ paths, data.textsOr place "scan_paths" standardScanPaths = .ok paths)
    (hignore : ∃ paths, data.textsOr place "ignore_paths" standardIgnorePaths = .ok paths) :
    ∃ s, ofEntries data declared place = .ok s := by
  simp only [sectionPlaces, List.forall_mem_cons, Section.entriesAt] at hsections
  obtain ⟨⟨structureSection, hstructure⟩, ⟨rules, hrules⟩, ⟨prompt, hprompt⟩, -, -, ⟨shared, hshared⟩,
    ⟨tests, htests⟩, ⟨coverage, hcoverage⟩, -⟩ := hsections
  simp only [fields, List.forall_mem_cons, Section.entriesAt, Schema.section?_eq_entriesBelow hstructure,
    Schema.section?_eq_entriesBelow hrules, Schema.section?_eq_entriesBelow hprompt] at hfields hshared htests hcoverage
  simp only [Schema.section?_eq_entriesBelow hshared, Schema.section?_eq_entriesBelow htests,
    Schema.section?_eq_entriesBelow hcoverage] at hfields
  obtain ⟨hrequired, hother, himport, hunused, hdetect, hmode, hexclusions, hpatterns, hlint, hlocation, hblackbox,
    hstrict, hmissing, henabled, hthreshold, hthresholds, hshown, hgoals, hprinciples, hrefactoring, hguidance,
    htesting, -⟩ := hfields
  simp only [ofEntries, promptOf, exists_bind_eq_ok, exists_pure_eq_ok, exists_and_right, and_true, below_eq_ok_iff]
  exact ⟨(body, name), heffective, structureSection, hstructure, rules, hrules, shared, hshared, tests, htests,
    coverage, hcoverage, hmodule, hmode, hlocation, hthresholds, hscan, hignore, hrequired, hother, himport, hunused,
    hdetect, hexclusions, hpatterns, hlint, hblackbox, hstrict, hmissing, henabled, hthreshold, prompt, hprompt,
    hshown, hgoals, hprinciples, hrefactoring, hguidance, htesting⟩

/-- Behind the names of sections the sections of a document are the document. -/
theorem lookup?_entriesAt_sectionsOf (h : parents.headD key ∈ sectionNames) :
    lookup? (.text key) ((sectionsOf data).entriesAt parents) = lookup? (.text key) (data.entriesAt parents) := by
  cases parents with
  | nil => exact lookup?_sectionsOf h
  | cons parent rest =>
    have hparent : parent ∈ sectionNames := h
    rw [Section.entriesAt, Section.entriesAt, lookup?_sectionsOf hparent]

theorem sectionNames_of_mem_documented {d : Documented} (hd : d ∈ documented) :
    d.parents.headD d.key ∈ sectionNames := by
  have hall : ∀ name ∈ documented.map fun d => d.parents.headD d.key, name ∈ sectionNames := by decide
  exact hall _ (List.mem_map_of_mem hd)

theorem found_sectionsOf {d : Documented} (hd : d ∈ documented) : d.found (sectionsOf data) = d.found data :=
  setting?_congr (lookup?_entriesAt_sectionsOf (sectionNames_of_mem_documented hd))

theorem textsOr_of_texts {items default : List String} (h : a.texts place key = .ok items) :
    a.textsOr place key default = .ok (if items = [] then default else items) := by
  rw [Section.textsOr, h]
  cases items <;> rfl

section Paths

variable {default : List String} {get : Settings → List String}

theorem textsOr_of_given {items : List String} (h : (Documented.paths key default get).found data = some v)
    (hv : GivesTexts v items) : data.textsOr place key default = .ok (if items = [] then default else items) :=
  textsOr_of_texts (texts_of_gives h hv)

theorem textsOr_of_absent (h : (Documented.paths key default get).found data = none) :
    data.textsOr place key default = .ok default :=
  textsOr_of_texts (texts_of_absent h)

/-- **Paths are honoured unless an empty list of them is given**: that counts as none. -/
theorem honoured_paths_iff (hdefault : default ≠ []) (hs : data.textsOr place key default = .ok (get s)) :
    ((Documented.paths key default get).Honoured data s ↔
        ¬ ∃ v, (Documented.paths key default get).found data = some v ∧ GivesTexts v []) ∧
      ((∃ v, (Documented.paths key default get).found data = some v ∧ GivesTexts v []) → get s = default) := by
  have hempty : (∃ v, (Documented.paths key default get).found data = some v ∧ GivesTexts v []) →
      get s = default := by
    rintro ⟨v, hfound, hv⟩
    rw [textsOr_of_given hfound hv, if_pos rfl] at hs
    exact (Except.ok.inj hs).symm
  refine ⟨⟨?_, fun hgiven => ⟨?_, fun habsent => ?_⟩⟩, hempty⟩
  · rintro hhonoured ⟨v, hfound, hv⟩
    have hnil : get s = [] := (hhonoured.given hfound hv).1
    exact hdefault ((hempty ⟨v, hfound, hv⟩).symm.trans hnil)
  · intro v (items : List String) hfound hv
    have hne : items ≠ [] := by
      rintro rfl
      exact hgiven ⟨v, hfound, hv⟩
    rw [textsOr_of_given hfound hv, if_neg hne] at hs
    exact has_paths (Except.ok.inj hs).symm
  · rw [textsOr_of_absent habsent] at hs
    exact has_paths (Except.ok.inj hs).symm

end Paths

theorem exists_textsOr {default : List String} {get : Settings → List String}
    (h : (Documented.paths key default get).found data = none ∨ (Documented.paths key default get).IsGiven data) :
    ∃ paths, data.textsOr place key default = .ok paths := by
  rcases h with h | ⟨v, items, hfound, hv⟩
  · exact ⟨default, textsOr_of_absent h⟩
  · exact ⟨_, textsOr_of_given hfound hv⟩

/-- The path of the module is the one that is given, and the one that the project declares without one. -/
theorem modulePath_of_given {path : String} (hne : path ≠ "") (h : data.setting? "module" = some (.text path)) :
    modulePathOf data declared place = .ok path := by
  rw [modulePathOf, text_of_text h, ok_bind, if_neg (by simpa using hne)]
  rfl

theorem modulePath_of_absent (h : data.setting? "module" = none) :
    modulePathOf data declared place = declared.mapError .modulePath := by
  rw [modulePathOf, text_of_absent h, ok_bind, if_pos (by simp)]

/-- **A document without a preset whose settings have values of their types is accepted.** -/
theorem exists_ofEntries_of_handWritten (h : IsHandWritten data declared) (place : String) :
    ∃ s, ofEntries data declared place = .ok s := by
  have hsections : ∀ p ∈ sectionPlaces,
      ∃ entries, section? (lookup? (.text p.2) ((sectionsOf data).entriesAt p.1)) = some entries := by
    intro p hp
    rw [lookup?_entriesAt_sectionsOf (sectionNames_of_mem_sectionPlaces p hp)]
    exact section?_of_map (h.sections p hp)
  have hfields : ∀ f ∈ fields, ∃ x, f.read ((sectionsOf data).entriesAt f.parents) place = .ok x := by
    rw [← map_toField_documented]
    intro f hf
    obtain ⟨d, hd, rfl⟩ := List.mem_map.mp hf
    rcases h.settings d (List.mem_append_left _ hd) with habsent | ⟨v, x, hv, hx⟩
    · exact ⟨_, (reads_of_mem_documented d hd).absent ((found_sectionsOf hd).trans habsent)⟩
    · exact ⟨x, (reads_of_mem_documented d hd).given ((found_sectionsOf hd).trans hv) hx⟩
  have hmodule : ∃ path, modulePathOf data declared place = .ok path := by
    rcases h.modulePath with ⟨habsent, path, rfl⟩ | ⟨path, hne, hpath⟩
    · exact ⟨path, modulePath_of_absent habsent⟩
    · exact ⟨path, modulePath_of_given hne hpath⟩
  have hpaths : ∀ d ∈ documentedPaths, d.found data = none ∨ d.IsGiven data :=
    fun d hd => h.settings d (List.mem_append_right _ hd)
  simp only [documentedPaths, List.forall_mem_cons] at hpaths
  obtain ⟨hscan, hignore, -⟩ := hpaths
  exact exists_ofEntries_of_fields (effective_of_none h.preset) hsections hfields hmodule (exists_textsOr hscan)
    (exists_textsOr hignore)

/-- **The settings of sections are honoured in every document that is accepted without a preset.** -/
theorem honoured_of_mem_documented (hpreset : lookup? (.text "preset") data = none)
    (hs : ofEntries data declared place = .ok s) {d : Documented} (hd : d ∈ documented) : d.Honoured data s := by
  have hfield : d.toField ∈ fields := map_toField_documented ▸ List.mem_map_of_mem hd
  have hread := read_of_mem_fields hs (effective_of_none hpreset) d.toField hfield
  have hreads := reads_of_mem_documented d hd
  have hhas : ∀ {x}, d.read ((sectionsOf data).entriesAt d.parents) place = .ok x → d.Has s x := by
    intro x hx
    rw [← Except.ok.inj (hread.symm.trans hx)]
    exact has_get hfield
  constructor
  · intro v x hv hx
    exact hhas (hreads.given ((found_sectionsOf hd).trans hv) hx)
  · intro habsent
    exact hhas (hreads.absent ((found_sectionsOf hd).trans habsent))

/-- **Settings that are given are honoured.** A document without a preset whose settings have values of their types is
accepted; the path of the module and every setting of a section are the ones that are given, with the defaults for
those that are absent or null, and the policy has those that rules depend on. So are the paths to scan and to ignore,
exactly when no empty list is given for them. -/
theorem ofEntries_honours (h : IsHandWritten data declared) (place : String) :
    ∃ s, ofEntries data declared place = .ok s ∧ s.preset = none ∧
      (∀ path, path ≠ "" → data.setting? "module" = some (.text path) → s.modulePath = path) ∧
      (data.setting? "module" = none → declared = .ok s.modulePath) ∧ s.policy.modulePath = s.modulePath ∧
      (∀ d ∈ documented, d.Honoured data s) ∧
      ∀ d ∈ documentedPaths, (d.Honoured data s ↔ ¬ ∃ v, d.found data = some v ∧ GivesTexts v []) ∧
        ((∃ v, d.found data = some v ∧ GivesTexts v []) → d.get s = d.default) := by
  obtain ⟨s, hs⟩ := exists_ofEntries_of_handWritten h place
  obtain ⟨hmodule, hscan, hignore⟩ := ofEntries_eq_ok hs
  refine ⟨s, hs, preset_of_ofEntries hs (effective_of_none h.preset), ?_, ?_, rfl, ?_, ?_⟩
  · intro path hne hgiven
    exact Except.ok.inj (hmodule.symm.trans (modulePath_of_given hne hgiven))
  · intro habsent
    exact mapError_eq_ok.mp ((modulePath_of_absent habsent).symm.trans hmodule)
  · intro d hd
    exact honoured_of_mem_documented h.preset hs hd
  · simp only [documentedPaths, List.forall_mem_cons]
    exact ⟨honoured_paths_iff (by simp [standardScanPaths]) hscan,
      honoured_paths_iff (by simp [standardIgnorePaths]) hignore, List.forall_mem_nil _⟩

/-- A document in which every setting is given. -/
def completeDocument (ignored : List String) : Section :=
  [(.text "module", .text "example.com/app"),
    (.text "scan_paths", .texts ["cmd", "internal"]),
    (.text "ignore_paths", .texts ignored),
    (.text "structure", .record
      [("required_directories", .record [("internal/domain", .text "Business logic"), ("cmd", .scalar () .null)]),
        ("allow_other_directories", .bool false)]),
    (.text "rules", .record
      [("directories_import", .record
          [("internal/app", .texts ["internal/domain"]), ("internal/domain", .texts []),
            ("internal/infra", .scalar () .null)]),
        ("detect_unused", .bool true),
        ("shared_external_imports", .record
          [("detect", .bool true), ("mode", .text "error"), ("exclusions", .texts ["github.com/google/uuid"]),
            ("exclusion_patterns", .texts [])]),
        ("test_files", .record
          [("lint", .bool true), ("location", .text "separate"), ("require_blackbox", .bool true),
            ("strict_naming", .bool true), ("flag_missing_tests", .bool false)]),
        ("test_coverage", .record
          [("enabled", .bool true), ("threshold", .int 70), ("package_thresholds", .record [("cmd", .int 90)])])]),
    (.text "error_prompt", .record
      [("enabled", .bool true), ("architectural_goals", .text "Keep the domain pure"),
        ("principles", .texts ["Depend inward"]), ("refactoring_guidance", .text ""),
        ("coverage_guidance", .text ""), ("blackbox_testing_guidance", .text "")])]

theorem isGiven_completeDocument (ignored : List String) :
    ∀ d ∈ documented ++ documentedPaths, d.IsGiven (completeDocument ignored) := by
  obtain ⟨low, hlow⟩ := Option.isSome_iff_exists.mp (by decide +kernel : (Binary64.ofInt? 70).isSome = true)
  obtain ⟨high, hhigh⟩ := Option.isSome_iff_exists.mp (by decide +kernel : (Binary64.ofInt? 90).isSome = true)
  have hrequired : GivesMap (OrNull (fun v purpose => v = .text purpose) "")
      (.record [("internal/domain", .text "Business logic"), ("cmd", .scalar () .null)])
      ⟨[("internal/domain", "Business logic"), ("cmd", "")], by decide⟩ :=
    ⟨_, rfl, .cons ⟨rfl, .inl rfl⟩ (.cons ⟨rfl, .inr ⟨rfl, rfl⟩⟩ .nil)⟩
  have himport : GivesMap (OrNull GivesTexts [])
      (.record [("internal/app", .texts ["internal/domain"]), ("internal/domain", .texts []),
        ("internal/infra", .scalar () .null)])
      ⟨[("internal/app", ["internal/domain"]), ("internal/domain", []), ("internal/infra", [])], by decide⟩ :=
    ⟨_, rfl, .cons ⟨rfl, .inl (.inl rfl)⟩
      (.cons ⟨rfl, .inl (.inl rfl)⟩ (.cons ⟨rfl, .inr ⟨rfl, rfl⟩⟩ .nil))⟩
  have hthresholds : GivesMap GivesNumber (.record [("cmd", .int 90)]) ⟨[("cmd", high)], by simp⟩ :=
    ⟨_, rfl, .cons ⟨rfl, .inr ⟨90, rfl, hhigh⟩⟩ .nil⟩
  simp only [documented, documentedPaths, List.cons_append, List.nil_append, List.forall_mem_cons]
  exact ⟨⟨_, _, rfl, hrequired⟩, ⟨_, false, rfl, rfl⟩, ⟨_, _, rfl, himport⟩, ⟨_, true, rfl, rfl⟩, ⟨_, true, rfl, rfl⟩,
    ⟨_, SharedImportsMode.error, rfl, rfl⟩, ⟨_, ["github.com/google/uuid"], rfl, .inl rfl⟩, ⟨_, [], rfl, .inl rfl⟩,
    ⟨_, true, rfl, rfl⟩, ⟨_, TestLocation.separate, rfl, rfl⟩, ⟨_, true, rfl, rfl⟩, ⟨_, true, rfl, rfl⟩,
    ⟨_, false, rfl, rfl⟩, ⟨_, true, rfl, rfl⟩, ⟨_, low, rfl, .inr ⟨70, rfl, hlow⟩⟩, ⟨_, _, rfl, hthresholds⟩,
    ⟨_, true, rfl, rfl⟩, ⟨_, "Keep the domain pure", rfl, rfl⟩, ⟨_, ["Depend inward"], rfl, .inl rfl⟩,
    ⟨_, "", rfl, rfl⟩, ⟨_, "", rfl, rfl⟩, ⟨_, "", rfl, rfl⟩, ⟨_, ["cmd", "internal"], rfl, .inl rfl⟩,
    ⟨_, ignored, rfl, .inl rfl⟩, List.forall_mem_nil _⟩

theorem isHandWritten_completeDocument (ignored : List String) (declared : Except ModulePath.Error String) :
    IsHandWritten (completeDocument ignored) declared where
  preset := rfl
  sections := by
    simp only [sectionPlaces, List.forall_mem_cons]
    exact ⟨.inr ⟨_, rfl⟩, .inr ⟨_, rfl⟩, .inr ⟨_, rfl⟩, .inr ⟨_, rfl⟩, .inr ⟨_, rfl⟩, .inr ⟨_, rfl⟩, .inr ⟨_, rfl⟩,
      .inr ⟨_, rfl⟩, .inr ⟨_, rfl⟩, List.forall_mem_nil _⟩
  settings d hd := .inr (isGiven_completeDocument ignored d hd)
  modulePath := .inr ⟨"example.com/app", by decide, rfl⟩

theorem not_givesTexts_nil {first : String} {rest : List String} : ¬ GivesTexts (.texts (first :: rest)) [] := by
  rintro (h | ⟨h, -⟩) <;> cases h

/-- With paths to ignore the complete document is honoured as a whole. -/
theorem ofEntries_honours_complete : ∃ s,
    ofEntries (completeDocument ["gen"]) (.ok "example.com/declared") ".archlint.yml" = .ok s ∧
      s.modulePath = "example.com/app" ∧ ∀ d ∈ documented ++ documentedPaths,
        d.Honoured (completeDocument ["gen"]) s := by
  obtain ⟨s, hs, -, hmodule, -, -, hsections, hpaths⟩ := ofEntries_honours
    (isHandWritten_completeDocument ["gen"] (.ok "example.com/declared")) ".archlint.yml"
  have hnonempty : ∀ d ∈ documentedPaths, ¬ ∃ v, d.found (completeDocument ["gen"]) = some v ∧ GivesTexts v [] := by
    simp only [documentedPaths, List.forall_mem_cons]
    refine ⟨?_, ?_, List.forall_mem_nil _⟩
    · rintro ⟨v, hv, hnil⟩
      cases hv
      exact not_givesTexts_nil hnil
    · rintro ⟨v, hv, hnil⟩
      cases hv
      exact not_givesTexts_nil hnil
  refine ⟨s, hs, hmodule _ (by decide) rfl, fun d hd => ?_⟩
  rcases List.mem_append.mp hd with hd | hd
  · exact hsections d hd
  · exact (hpaths d hd).1.mpr (hnonempty d hd)

/-- **An empty list of paths is not honoured**, although every setting is given with a value of its type. -/
theorem ofEntries_not_honoured_emptied : ¬ ∀ (data : Section) (declared : Except ModulePath.Error String)
    (place : String), IsHandWritten data declared → (∀ d ∈ documented ++ documentedPaths, d.IsGiven data) →
      ∃ s, ofEntries data declared place = .ok s ∧ ∀ d ∈ documented ++ documentedPaths, d.Honoured data s := by
  intro h
  obtain ⟨s, hs, hhonoured⟩ := h (completeDocument []) (.ok "") "" (isHandWritten_completeDocument [] _)
    (isGiven_completeDocument [])
  have hempty : s.ignorePaths = [] :=
    (hhonoured (.paths "ignore_paths" standardIgnorePaths (·.ignorePaths))
      (List.mem_append_right _ (.tail _ (.head _)))).given rfl (.inl rfl) |>.1
  obtain ⟨-, -, hignore⟩ := ofEntries_eq_ok hs
  have hstandard : (completeDocument []).textsOr "" "ignore_paths" standardIgnorePaths = .ok standardIgnorePaths := by
    rfl
  rw [hstandard, hempty] at hignore
  cases hignore

end LayerLint.Settings
