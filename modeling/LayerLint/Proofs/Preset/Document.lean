import LayerLint.Preset.BuiltIn
import LayerLint.Preset.Document
import LayerLint.Proofs.Settings.Document

/-!
# The documents of presets

- The document of a preset has the entries `writtenEntries`: the path of the module, the section of the preset, and
  the overrides where there are any (`document_plain`).
- The sections of the built-in presets fit the schema of configurations (`fits_configuration`), so the document is
  accepted with all overrides that were accepted before (`exists_ofEntries_written`).
-/

namespace LayerLint.Preset

open Yaml Result

variable {data : Settings.Section}

/-! ## The entries of the document -/

/-- The entries of the section of a preset. -/
def sectionEntries (preset : Preset) : Settings.Section :=
  match preset.configuration with
  | .map _ entries => entries
  | _ => []

/-- The entries of the document that a refresh writes. -/
def writtenEntries (preset : Preset) (modulePath : String) (overrides : Option (Value Nat)) : Settings.Section :=
  [(.text "module", .text modulePath), (.text "preset", preset.configuration)] ++
    overrides.toList.map fun v => (.text "overrides", v.plain)

/-- **The document of a preset has these entries.** -/
theorem document_plain (preset : Preset) (modulePath : String) (overrides : Option (Value Nat)) :
    (preset.document modulePath (overrides.map fun v => v.remark some)).plain =
      .map () (writtenEntries preset modulePath overrides) := by
  have hplain : ∀ v : Value Unit, ((v.remark fun _ => (none : Option Nat)).remark fun _ => ()) = v :=
    fun v => v.plain_remark _
  have hoverrides : ∀ v : Value Nat, ((v.remark some).remark fun _ => ()) = v.plain := Value.plain_remark_some
  cases overrides <;>
    simp [document, writtenEntries, Value.plain, Value.remark, Value.remarkEntries, hplain, hoverrides]

theorem lookup_module (preset : Preset) (modulePath : String) (overrides : Option (Value Nat)) :
    lookup? (.text "module") (writtenEntries preset modulePath overrides) = some (.text modulePath) := by
  simp [writtenEntries, lookup?_cons]

theorem lookup_preset (preset : Preset) (modulePath : String) (overrides : Option (Value Nat)) :
    lookup? (.text "preset") (writtenEntries preset modulePath overrides) = some preset.configuration := by
  simp [writtenEntries, lookup?_cons]

theorem lookup_overrides (preset : Preset) (modulePath : String) (overrides : Option (Value Nat)) :
    lookup? (.text "overrides") (writtenEntries preset modulePath overrides) = overrides.map Value.plain := by
  cases overrides <;> simp [writtenEntries, lookup?]

theorem lookup_other (preset : Preset) (modulePath : String) (overrides : Option (Value Nat)) {key : String}
    (h : key ∉ ["module", "preset", "overrides"]) :
    lookup? (.text key) (writtenEntries preset modulePath overrides) = none := by
  cases overrides <;> simp_all [writtenEntries, lookup?, eq_comm]

/-! ## The presets fit -/

/-- The coverage that presets ask for are floating-point numbers. -/
theorem thresholds_ofInt? : ∀ preset ∈ all, (Binary64.ofInt? preset.coverageThreshold).isSome = true ∧
    ∀ e ∈ preset.packageThresholds, (Binary64.ofInt? e.2).isSome = true := by
  decide +kernel

open Settings in
/-- **The sections of the presets fit.** -/
theorem fits_configuration {preset : Preset} (h : preset ∈ all) :
    (Schema.record sectionsSchema).Fits (some preset.configuration) := by
  obtain ⟨hthreshold, hthresholds⟩ := thresholds_ofInt? preset h
  have htruth : ∀ b, (Schema.setting .truth).Fits (some (.bool b)) := fun _ => Schema.fits_setting rfl
  have htext : ∀ s, (Schema.setting .text).Fits (some (.text s)) := fun _ => Schema.fits_setting rfl
  have htexts : ∀ items, (Schema.setting .texts).Fits (some (.texts items)) := fun items =>
    Schema.fits_setting (by rw [Kind.accepts, Section.asTexts?_texts]; rfl)
  have hmode : (Schema.setting .sharedMode).Fits (some (.text "warn")) := Schema.fits_setting (by decide +kernel)
  have hlocation : (Schema.setting .testLocation).Fits (some (.text "colocated")) :=
    Schema.fits_setting (by decide +kernel)
  have hcoverage : (Schema.setting .number).Fits (some (.int preset.coverageThreshold)) :=
    Schema.fits_setting hthreshold
  have hpackages : (Schema.every .number).Fits (some (.record
      (preset.packageThresholds.map fun e => (e.1, .int e.2)))) :=
    Schema.fits_every fun e he => hthresholds e he
  have himport : (Schema.every .paths).Fits (some (.record
      (preset.directoriesImport.map fun e => (e.1, .texts e.2)))) :=
    Schema.fits_every fun e _ => congrArg Option.isSome (Section.asTexts?_texts e.2)
  have hrequired : (Schema.every .shown).Fits (some (.record
      (preset.requiredDirectories.map fun e => (e.1, .text e.2)))) :=
    Schema.fits_every fun _ _ => rfl
  have hnone : ∀ kind, (Schema.setting kind).Fits none := fun kind => Schema.fits_setting_none
  have hnil : ∀ key, lookup? key ([] : Section) = none := fun _ => rfl
  simp [configuration, sectionsSchema, Schema.FitsAll, Schema.fits_record, lookup?_cons, *]

/-! ## Reading the document -/

/-- A text that is not empty is the path of the module. -/
theorem modulePath_written (preset : Preset) {modulePath : String} (h : modulePath ≠ "")
    (overrides : Option (Value Nat)) (declared : Except ModulePath.Error String) (place : String) :
    Settings.modulePathOf (writtenEntries preset modulePath overrides) declared place = .ok modulePath := by
  simp [Settings.modulePathOf, Settings.Section.text, Settings.Section.setting?, lookup_module, Value.text,
    Settings.Section.asText?, bind, Except.bind, h, pure, Except.pure]

theorem textsOr_written (preset : Preset) (modulePath : String) (overrides : Option (Value Nat)) (place : String)
    (key : String) (h : key ∉ ["module", "preset", "overrides"]) (default : List String) :
    Settings.Section.textsOr (writtenEntries preset modulePath overrides) place key default = .ok default := by
  simp [Settings.Section.textsOr, Settings.Section.texts, Settings.Section.setting?, lookup_other _ _ _ h, bind,
    Except.bind, pure, Except.pure]

theorem configuration_eq_map (preset : Preset) : preset.configuration = .map () preset.sectionEntries := rfl

theorem writable_name (preset : Preset) :
    ∀ v ∈ lookup? (.text "name") preset.sectionEntries, v.isWritable = true := by
  intro v hv
  obtain rfl : Value.text preset.name = v := Option.some.inj hv
  rfl

/-- **The document that a refresh writes is accepted**, with the standard paths to scan and to ignore. -/
theorem exists_ofEntries_written {preset : Preset} (hpreset : preset ∈ all) {overrides : Option (Value Nat)}
    {declared : Except ModulePath.Error String} {place modulePath : String} {before : Settings}
    (hbefore : Settings.ofEntries data declared place = .ok before)
    (hlayout : (lookup? (.text "preset") data).isSome = true)
    (hproper : ∀ v ∈ lookup? (.text "overrides") data, v.Proper ∧ v.isWritable = true)
    (hsame : Settings.Section.below (writtenEntries preset modulePath overrides) place "overrides" =
      data.below place "overrides")
    (hmodule : modulePath ≠ "") (declared' : Except ModulePath.Error String) :
    ∃ after, Settings.ofEntries (writtenEntries preset modulePath overrides) declared' place = .ok after ∧
      after.modulePath = modulePath ∧ after.scanPaths = Settings.standardScanPaths ∧
        after.ignorePaths = Settings.standardIgnorePaths := by
  have hpath := modulePath_written preset hmodule overrides declared' place
  have hscan := textsOr_written preset modulePath overrides place "scan_paths" (by decide)
    Settings.standardScanPaths
  have hignore := textsOr_written preset modulePath overrides place "ignore_paths" (by decide)
    Settings.standardIgnorePaths
  have hfits : Settings.Schema.FitsAll Settings.sectionsSchema preset.sectionEntries := by
    obtain ⟨s, hs, hfits⟩ := Settings.Schema.fits_record_iff.mp (fits_configuration hpreset)
    obtain rfl : preset.sectionEntries = s := Option.some.inj hs
    exact hfits
  have heffective := Settings.exists_effective_of_same_overrides hbefore hlayout hproper
    ((lookup_preset ..).trans (congrArg some preset.configuration_eq_map)) hfits (writable_name preset) hsame
  obtain ⟨after, hafter⟩ := Settings.exists_ofEntries_iff.mpr ⟨heffective, ⟨_, hpath⟩, ⟨_, hscan⟩, _, hignore⟩
  obtain ⟨hpath', hscan', hignore'⟩ := Settings.ofEntries_eq_ok hafter
  exact ⟨after, hafter, Except.ok.inj (hpath'.symm.trans hpath), Except.ok.inj (hscan'.symm.trans hscan),
    Except.ok.inj (hignore'.symm.trans hignore)⟩

end LayerLint.Preset
