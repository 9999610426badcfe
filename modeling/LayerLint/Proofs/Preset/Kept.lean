import LayerLint.Proofs.Preset.Change
import LayerLint.Proofs.Preset.Document
import LayerLint.Proofs.Settings.Outline

/-!
# What a refresh keeps

Where the configuration holds a document (`Holds`) its settings are those that are loaded (`load_of_holds`).

- The overrides of the document are those of the document that a refresh writes (`below_overrides_written`).
- The path of the module is the one that the document gives, or it is looked up before and after (`modulePath_cases`).
- The paths to scan and to ignore are not in the document that is written, so they are the standard ones afterwards
  (`refresh_written`).
-/

namespace LayerLint.Preset

open Yaml Result

variable {disk : Disk} {root : Location} {data : Settings.Section}

/-! ## The document before -/

/-- The file at a location holds a document with these entries. -/
def Holds (disk : Disk) (location : Location) (data : Settings.Section) : Prop :=
  ∃ text, currentText disk location = .ok text ∧ Settings.entriesOfText location.name text = .ok data

/-- Where the configuration holds a document its settings are loaded. -/
theorem load_of_holds (h : Holds disk (configurationOf root) data) : (Settings.load disk root none).result =
    Settings.ofEntries data (ModulePath.detect disk root) (configurationOf root).name := by
  obtain ⟨text, htext, hdata⟩ := h
  obtain ⟨hfile, hread⟩ := currentText_eq_ok_iff.mp htext
  have hofFile : Settings.ofFile disk root (configurationOf root) =
      Settings.ofEntries data (ModulePath.detect disk root) (configurationOf root).name := by
    rw [Settings.ofFile, hread]
    simp [hdata, bind, Except.bind]
  rw [← hofFile]
  have hgiven : (none : Option Location).getD (root.join Settings.fileName) = configurationOf root := rfl
  unfold Settings.load
  dsimp only
  rw [hgiven, hfile]
  change (Logged.andThen (.ofExcept (Settings.ofFile disk root (configurationOf root))) _).result = _
  cases Settings.ofFile disk root (configurationOf root) <;> rfl

/-- The entries of a document, with marks and without them. -/
theorem entriesOfText_plain {name text : String} {entries : List (Scalar × Value Nat)}
    (hentries : entriesOfText text = .ok entries) (hdata : Settings.entriesOfText name text = .ok data)
    (hne : data ≠ []) : data = Value.remarkEntries (fun _ => ()) entries ∧
      ∃ value mark, Value.ofText? text = .ok (some value) ∧ Settings.openDocument value = .map mark entries := by
  rw [entriesOfText] at hentries
  rw [Settings.entriesOfText] at hdata
  cases htext : Value.ofText? text with
  | error e => simp [htext] at hdata
  | ok found =>
    cases found with
    | none => exact absurd (by simpa [htext, eq_comm] using hdata) hne
    | some value =>
      simp only [htext] at hentries hdata
      generalize hopened : Settings.openDocument value = document at hentries hdata
      cases document with
      | map mark fields =>
        obtain rfl : fields = entries := by simpa using hentries
        exact ⟨by simpa [Value.plain, Value.remark, eq_comm] using hdata, value, mark, rfl, hopened⟩
      | scalar mark scalar => cases scalar <;> simp_all [Value.plain, Value.remark]
      | list | set | pairs | cycle => simp [Value.plain, Value.remark] at hdata

/-- The document gives the path of the module. -/
def NamesModule (data : Settings.Section) : Prop :=
  ∃ path, path ≠ "" ∧ lookup? (.text "module") data = some (.text path)

theorem ofLine?_ne_empty {line : List Char} {path : String} (h : ModulePath.ofLine? line = some path) : path ≠ "" := by
  simp only [ModulePath.ofLine?] at h
  split at h
  · split at h
    · cases h
    · rename_i hne
      obtain rfl := Option.some.inj h
      intro hempty
      exact hne (by simpa using hempty)
  · cases h

theorem detect_ne_empty {path : String} (h : ModulePath.detect disk root = .ok path) : path ≠ "" := by
  rw [ModulePath.detect] at h
  split at h
  · cases h
  · cases h
  · split at h
    · rename_i found hfound
      obtain rfl : found = path := by simpa using h
      obtain ⟨line, -, hline⟩ := List.exists_of_findSome?_eq_some hfound
      exact ofLine?_ne_empty hline
    · cases h

/-- The path of the module that the settings have and the one that a refresh writes are the one that the document
gives, or both are looked up. -/
theorem modulePath_cases {entries : List (Scalar × Value Nat)} {declared : Except ModulePath.Error String}
    {place path : String} (hdata : data = Value.remarkEntries (fun _ => ()) entries)
    (h : Settings.modulePathOf data declared place = .ok path) :
    (NamesModule data ∧ path ≠ "" ∧ ∀ disk root, modulePathFor disk root entries = .ok path) ∨
      (¬ NamesModule data ∧ declared = .ok path ∧
        ∀ disk root, modulePathFor disk root entries = (ModulePath.detect disk root).mapError .modulePath) := by
  have hlookup : lookup? (.text "module") data = (lookup? (.text "module") entries).map Value.plain :=
    hdata ▸ lookup?_plain entries _
  rw [Settings.modulePathOf, bind_eq_ok] at h
  obtain ⟨given, hgiven, hpath⟩ := h
  rcases Settings.text_eq_ok hgiven with ⟨hne, hfound⟩ | ⟨rfl, hfalsy⟩
  · obtain rfl : given = path := by simpa [hne, pure, Except.pure] using hpath
    refine .inl ⟨⟨given, hne, hfound⟩, hne, fun disk root => ?_⟩
    rw [hlookup, Option.map_eq_some_iff] at hfound
    obtain ⟨v, hv, hplain⟩ := hfound
    obtain ⟨mark, rfl⟩ : ∃ mark, v = .scalar mark (.text given) := by
      cases v <;> simp_all [Value.plain, Value.remark, Value.text]
    have hkept : (!(Value.scalar mark (.text given)).isFalsy) = true := by simp [Value.isFalsy, Scalar.isFalsy, hne]
    rw [modulePathFor, hv, Option.filter_some, if_pos hkept]
    rfl
  · refine .inr ⟨?_, by simpa [mapError_eq_ok] using hpath, fun disk root => ?_⟩
    · rintro ⟨path, hne, hfound⟩
      have := hfalsy _ hfound
      simp [Value.text, Value.isFalsy, Scalar.isFalsy, hne] at this
    · rw [modulePathFor]
      cases hvalue : lookup? (.text "module") entries with
      | none => rfl
      | some v =>
        have hv : v.isFalsy = true := by
          rw [← Value.isFalsy_remark (fun _ => ()) v]
          exact hfalsy _ (by rw [hlookup, hvalue]; rfl)
        rw [Option.filter_some, hv]
        rfl

/-- **The overrides that are written are those of the document**, where an empty map and none are the same. -/
theorem below_overrides_written {entries : List (Scalar × Value Nat)} {overrides : Option (Value Nat)}
    (hdata : data = Value.remarkEntries (fun _ => ()) entries) (h : overridesOf entries = .ok overrides)
    (preset : Preset) (modulePath place : String) :
    Settings.Section.below (writtenEntries preset modulePath overrides) place "overrides" =
      data.below place "overrides" := by
  have hlookup : lookup? (.text "overrides") data = (lookup? (.text "overrides") entries).map Value.plain :=
    hdata ▸ lookup?_plain entries _
  obtain ⟨s, hwritten, hfound⟩ : ∃ s, Settings.section? (overrides.map Value.plain) = some s ∧
      Settings.section? ((lookup? (.text "overrides") entries).map Value.plain) = some s := by
    rw [overridesOf] at h
    split at h
    · rename_i hnone
      obtain rfl := Except.ok.inj h
      exact ⟨[], rfl, by rw [hnone]; rfl⟩
    · rename_i mark hnull
      obtain rfl := Except.ok.inj h
      exact ⟨[], rfl, by rw [hnull]; rfl⟩
    · rename_i mark fields hmap
      obtain rfl := Except.ok.inj h
      rw [hmap]
      cases fields with
      | nil => exact ⟨[], rfl, rfl⟩
      | cons field rest => exact ⟨_, rfl, rfl⟩
    · cases h
  rw [Settings.below_eq_ok_iff.mpr ((congrArg _ (lookup_overrides ..)).trans hwritten),
    Settings.below_eq_ok_iff.mpr ((congrArg _ hlookup).trans hfound)]

/-- Where the overrides that are written can be written, so can those of the document. -/
theorem isWritable_of_overridesOf {entries : List (Scalar × Value Nat)} {overrides : Option (Value Nat)}
    (h : overridesOf entries = .ok overrides) (hwritable : ∀ v ∈ overrides, v.isWritable = true) :
    ∀ v ∈ lookup? (.text "overrides") entries, v.isWritable = true := by
  intro v hv
  rw [overridesOf, hv] at h
  split at h
  · cases ‹_ = none›
  · obtain rfl := Option.some.inj ‹_ = some (Value.scalar _ _)›
    rfl
  · rename_i mark fields hmap
    obtain rfl := Option.some.inj hmap
    obtain rfl := Except.ok.inj h
    cases fields with
    | nil => rfl
    | cons field rest => exact hwritable _ rfl
  · cases h

/-- The overrides of a document that is refreshed have no key twice, and they can be written. -/
theorem proper_overrides {text : String} {document : Value Nat} {mark : Nat} {entries : List (Scalar × Value Nat)}
    {overrides : Option (Value Nat)} (htext : Value.ofText? text = .ok (some document))
    (hopened : Settings.openDocument document = .map mark entries)
    (hdata : data = Value.remarkEntries (fun _ => ()) entries) (hoverrides : overridesOf entries = .ok overrides)
    (hwritable : ∀ v ∈ overrides, v.isWritable = true) :
    ∀ v ∈ lookup? (.text "overrides") data, v.Proper ∧ v.isWritable = true := by
  intro v hv
  constructor
  · obtain ⟨e, he, rfl⟩ := mem_of_lookup? hv
    cases (hopened ▸ Settings.proper_openDocument (Value.ofText?_proper htext)).remark (fun _ => ()) with
    | map distinct values =>
      rw [hdata] at he
      exact values e he
    | other h => exact absurd trivial h
  · rw [hdata, lookup?_plain] at hv
    obtain ⟨inFile, hin, rfl⟩ := Option.map_eq_some_iff.mp hv
    exact (Value.isWritable_remark _ inFile).trans (isWritable_of_overridesOf hoverrides hwritable _ hin)

/-! ## What is kept -/

/-- The path of the module is found where it was before: the document gives it, or the backup leaves alone what
declares it. -/
def DeclarationKept (disk : Disk) (root : Location) (data : Settings.Section) : Prop :=
  NamesModule data ∨ ∀ text backedUp, currentText disk (configurationOf root) = .ok text →
    disk.writeText (backupOf root) text = .ok backedUp →
      ModulePath.detect backedUp root = ModulePath.detect disk root

theorem known_mem {name : String} {preset : Preset} (h : known name = .ok preset) : preset ∈ all := by
  rw [known] at h
  split at h
  · rename_i found hfound
    obtain rfl := Except.ok.inj h
    exact List.mem_of_find?_eq_some hfound
  · cases h

theorem chosen_mem {entries : List (Scalar × Value Nat)} {name : Option String} {preset : Preset}
    (h : chosen entries name = .ok preset) : preset ∈ all := by
  simp only [chosen] at h
  split at h
  · exact known_mem h
  · cases h
  · split at h
    · exact known_mem h
    · cases h

/-- The document that a refresh writes: its overrides, its settings, and whether they have the path of the module that
they had. -/
theorem refresh_written {name : Option String} {before : Settings} {used : String}
    (hholds : Holds disk (configurationOf root) data) (hlayout : (lookup? (.text "preset") data).isSome = true)
    (hload : (Settings.load disk root none).result = .ok before)
    (hrefresh : (refresh disk root name).outcome.result = .ok used) :
    ∃ preset modulePath overrides after, preset ∈ all ∧ used = preset.name ∧
      (refresh disk root name).disk.find? (configurationOf root) =
        .ok (some (.file (refreshedText preset modulePath overrides).toUTF8)) ∧
      Settings.Section.below (writtenEntries preset modulePath overrides) (configurationOf root).name "overrides" =
        data.below (configurationOf root).name "overrides" ∧
      Settings.ofEntries (writtenEntries preset modulePath overrides)
        (ModulePath.detect (refresh disk root name).disk root) (configurationOf root).name = .ok after ∧
      after.scanPaths = Settings.standardScanPaths ∧ after.ignorePaths = Settings.standardIgnorePaths ∧
      (after.modulePath = before.modulePath ↔ DeclarationKept disk root data) := by
  have hrefreshed := refresh_refreshed disk root name
  rw [hrefresh] at hrefreshed
  generalize (refresh disk root name).disk = disk' at hrefreshed ⊢
  rw [load_of_holds hholds] at hload
  obtain ⟨text, htext, hdocument⟩ := hholds
  have hne : data ≠ [] := by
    rintro rfl
    cases hlayout
  cases hrefreshed with
  | @written text' entries preset overrides backedUp _ modulePath hchecks hbackup hpath hwrite =>
    obtain ⟨htext', hentries, hpreset, hoverrides⟩ := checks_eq_ok_iff.mp hchecks
    obtain ⟨hmodule, hwritable⟩ := writtenPath_eq_ok_iff.mp hpath
    obtain rfl : text = text' := Except.ok.inj (htext.symm.trans htext')
    obtain ⟨hdata, document, mark, hvalue, hopened⟩ := entriesOfText_plain hentries hdocument hne
    have hsame := below_overrides_written hdata hoverrides preset modulePath (configurationOf root).name
    have hcases := modulePath_cases hdata (Settings.ofEntries_eq_ok hload).1
    have hmoduleNe : modulePath ≠ "" := by
      rcases hcases with ⟨-, hpath, hgiven⟩ | ⟨-, -, hlooked⟩
      · rw [hgiven] at hmodule
        exact Except.ok.inj hmodule ▸ hpath
      · rw [hlooked, mapError_eq_ok] at hmodule
        exact detect_ne_empty hmodule
    obtain ⟨after, hafter, hpath, hscan, hignore⟩ := exists_ofEntries_written (chosen_mem hpreset) hload hlayout
      (proper_overrides hvalue hopened hdata hoverrides hwritable) hsame hmoduleNe (ModulePath.detect disk' root)
    refine ⟨preset, modulePath, overrides, after, chosen_mem hpreset, rfl, Disk.find?_writeText hwrite, hsame, hafter,
      hscan, hignore, ?_⟩
    rw [hpath]
    constructor
    · intro hsamePath
      rcases hcases with ⟨hgiven, -⟩ | ⟨-, hdetected, hlooked⟩
      · exact .inl hgiven
      · refine .inr fun text' backedUp' htext' hbackup' => ?_
        obtain rfl : text = text' := Except.ok.inj (htext.symm.trans htext')
        obtain rfl : backedUp = backedUp' := Except.ok.inj (hbackup.symm.trans hbackup')
        rw [hlooked, mapError_eq_ok] at hmodule
        rw [hmodule, hdetected, hsamePath]
    · intro hkept
      rcases hcases with ⟨-, -, hgiven⟩ | ⟨hnot, hdetected, hlooked⟩
      · rw [hgiven] at hmodule
        exact (Except.ok.inj hmodule).symm
      · rw [hlooked, mapError_eq_ok, hkept.resolve_left hnot text backedUp htext hbackup, hdetected] at hmodule
        exact (Except.ok.inj hmodule).symm

/-- The path of the module is found where it was unless the backup takes the place of what declares it. -/
theorem declarationKept_of_resolve_ne {path : String} (hdetect : ModulePath.detect disk root = .ok path)
    (hne : disk.resolve (root.join ModulePath.fileName) true ≠ disk.resolve (backupOf root) true) :
    DeclarationKept disk root data := by
  refine .inr fun text backedUp _ hbackup => ?_
  rw [hdetect]
  rw [ModulePath.detect] at hdetect ⊢
  cases hread : disk.readText (root.join ModulePath.fileName) with
  | error e => cases e <;> simp [hread] at hdetect
  | ok content =>
    rw [Disk.readText_writeText_other hbackup hread hne]
    simpa [hread] using hdetect

end LayerLint.Preset
