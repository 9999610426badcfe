import LayerLint.Proofs.Preset.ReadBack

/-!
# Settings before and after a refresh

A refresh writes no paths to scan and to ignore, and the path of the module may be found elsewhere. So the settings that
do not come from the preset are kept exactly when these paths were the standard ones and the path of the module is
found where it was (`refresh_kept`). They are the ones that are loaded where what is written is read back, and that is
so for lasting overrides (`holds_written`).
-/

namespace LayerLint.Preset

open Yaml Result

variable {disk : Disk} {root : Location} {data : Settings.Section}

/-- **A configuration with lasting overrides holds the document that was written.** -/
theorem holds_written {preset : Preset} {modulePath : String} {overrides : Option (Value Nat)} (hpreset : preset ∈ all)
    (hpath : IsLastingPath modulePath) (hoverrides : ∀ v ∈ overrides, IsLasting v)
    (hfile : disk.find? (configurationOf root) =
      .ok (some (.file (refreshedText preset modulePath overrides).toUTF8))) :
    Holds disk (configurationOf root) (writtenEntries preset modulePath overrides) := by
  obtain ⟨hwritten, w, hw, hplain, -⟩ :=
    ofText?_rendered hpreset hpath hoverrides (isRemarks_refreshedHeader hpreset)
  refine ⟨_, currentText_of_find? hwritten hfile, ?_⟩
  rw [Settings.entriesOfText, hw]
  dsimp only
  rw [openDocument_of_plain hpreset hoverrides hplain, hplain]

/-- **What a refresh keeps**: the document that it writes has the overrides of the former one and is accepted. Its
settings have the path of the module and the paths to scan and to ignore that they had exactly when these paths were
the standard ones and the path of the module is found where it was. They are loaded if the document is read back, and so
they are where the overrides and the path of the module last. -/
theorem refresh_kept {name : Option String} {before : Settings} {used : String}
    (hholds : Holds disk (configurationOf root) data) (hlayout : (lookup? (.text "preset") data).isSome = true)
    (hload : (Settings.load disk root none).result = .ok before)
    (hrefresh : (refresh disk root name).outcome.result = .ok used) :
    ∃ preset modulePath overrides after, used = preset.name ∧
      (refresh disk root name).disk.find? (configurationOf root) =
        .ok (some (.file (refreshedText preset modulePath overrides).toUTF8)) ∧
      Settings.Section.below (writtenEntries preset modulePath overrides) (configurationOf root).name "overrides" =
        data.below (configurationOf root).name "overrides" ∧
      Settings.ofEntries (writtenEntries preset modulePath overrides)
        (ModulePath.detect (refresh disk root name).disk root) (configurationOf root).name = .ok after ∧
      (Holds (refresh disk root name).disk (configurationOf root) (writtenEntries preset modulePath overrides) →
        (Settings.load (refresh disk root name).disk root none).result = .ok after) ∧
      ((∀ v ∈ overrides, IsLasting v) → IsLastingPath modulePath →
        (Settings.load (refresh disk root name).disk root none).result = .ok after) ∧
      (after.modulePath = before.modulePath ∧ after.scanPaths = before.scanPaths ∧
          after.ignorePaths = before.ignorePaths ↔
        DeclarationKept disk root data ∧ before.scanPaths = Settings.standardScanPaths ∧
          before.ignorePaths = Settings.standardIgnorePaths) := by
  obtain ⟨preset, modulePath, overrides, after, hpreset, hused, hfile, hoverrides, hafter, hscan, hignore, hpath⟩ :=
    refresh_written hholds hlayout hload hrefresh
  have hloaded :
      Holds (refresh disk root name).disk (configurationOf root) (writtenEntries preset modulePath overrides) →
        (Settings.load (refresh disk root name).disk root none).result = .ok after := by
    intro hreads
    rw [load_of_holds hreads, hafter]
  refine ⟨preset, modulePath, overrides, after, hused, hfile, hoverrides, hafter, hloaded,
    fun hlasting hlastingPath => hloaded (holds_written hpreset hlastingPath hlasting hfile), ?_⟩
  rw [hpath, hscan, hignore, eq_comm, @eq_comm _ Settings.standardIgnorePaths]

/-! ## Two projects -/

/-- A project whose configuration gives the path of the module, after other entries. -/
def namedProject (first : String) : Disk :=
  { nodes := [([Settings.fileName], .file (first ++ "module: m\npreset: \x7bname: simple\x7d\n").toUTF8)]
    current := [] }

/-- What a file holds can be checked without being written down. -/
theorem exists_holds_of_any (disk : Disk) (location : Location) (p : Settings.Section → Bool)
    (h : ((currentText disk location).toOption.any fun text =>
      (Settings.entriesOfText location.name text).toOption.any p) = true) :
    ∃ data, Holds disk location data ∧ p data = true := by
  obtain ⟨text, htext, hany⟩ := exists_of_any _ _ h
  obtain ⟨data, hdata, hp⟩ := exists_of_any _ _ hany
  exact ⟨data, ⟨text, htext, hdata⟩, hp⟩

theorem namesModule_of_asText? {path : String} (hpath : path ≠ "")
    (h : (lookup? (.text "module") data).bind Settings.Section.asText? = some path) : NamesModule data := by
  obtain ⟨v, hv, htext⟩ := Option.bind_eq_some_iff.mp h
  refine ⟨path, hpath, hv.trans ?_⟩
  cases v with
  | scalar mark scalar => cases scalar <;> simp_all [Settings.Section.asText?, Value.text]
  | list | map | set | pairs | cycle => cases htext

/-- Where the paths are the standard ones and the document gives the path of the module, all of them are kept. -/
theorem refresh_kept_standard : ∃ before preset modulePath overrides after,
    (Settings.load (namedProject "") namedRoot none).result = .ok before ∧
      Settings.ofEntries (writtenEntries preset modulePath overrides)
        (ModulePath.detect (refresh (namedProject "") namedRoot none).disk namedRoot) (configurationOf namedRoot).name =
        .ok after ∧
      after.modulePath = before.modulePath ∧ after.scanPaths = before.scanPaths ∧
        after.ignorePaths = before.ignorePaths := by
  have hdata := exists_holds_of_any (namedProject "") (configurationOf namedRoot)
    (fun data => (lookup? (.text "preset") data).isSome &&
      (lookup? (.text "module") data).bind Settings.Section.asText? == some "m") (by decide +kernel)
  have hbefore := exists_of_any (Settings.load (namedProject "") namedRoot none).result
    (fun before => before.scanPaths == Settings.standardScanPaths &&
      before.ignorePaths == Settings.standardIgnorePaths) (by decide +kernel)
  have hrefresh : (refresh (namedProject "") namedRoot none).outcome.result = .ok "simple" := by decide +kernel
  simp only [Bool.and_eq_true, beq_iff_eq] at hdata hbefore
  obtain ⟨data, hholds, hlayout, hnames⟩ := hdata
  obtain ⟨before, hload, hscan, hignore⟩ := hbefore
  obtain ⟨preset, modulePath, overrides, after, -, -, -, hafter, -, -, hkept⟩ :=
    refresh_kept hholds hlayout hload hrefresh
  exact ⟨before, preset, modulePath, overrides, after, hload, hafter,
    hkept.mpr ⟨.inl (namesModule_of_asText? (by decide) hnames), hscan, hignore⟩⟩

/-- Paths to scan that a configuration gives are not in the document that a refresh writes. -/
theorem refresh_scanPaths_lost :
    ¬ ∀ (disk : Disk) (root : Location) (name : Option String) (data : Settings.Section) (before : Settings)
        (used : String), Holds disk (configurationOf root) data → (lookup? (.text "preset") data).isSome = true →
      (Settings.load disk root none).result = .ok before → (refresh disk root name).outcome.result = .ok used →
        ∀ preset modulePath overrides after, (refresh disk root name).disk.find? (configurationOf root) =
            .ok (some (.file (refreshedText preset modulePath overrides).toUTF8)) →
          Settings.ofEntries (writtenEntries preset modulePath overrides)
            (ModulePath.detect (refresh disk root name).disk root) (configurationOf root).name = .ok after →
          after.scanPaths = before.scanPaths := by
  intro hall
  have hdata := exists_holds_of_any (namedProject "scan_paths: [src]\n") (configurationOf namedRoot)
    (fun data => (lookup? (.text "preset") data).isSome) (by decide +kernel)
  have hbefore := exists_of_any (Settings.load (namedProject "scan_paths: [src]\n") namedRoot none).result
    (fun before => before.scanPaths == ["src"]) (by decide +kernel)
  have hrefresh : (refresh (namedProject "scan_paths: [src]\n") namedRoot none).outcome.result = .ok "simple" := by
    decide +kernel
  obtain ⟨data, hholds, hlayout⟩ := hdata
  obtain ⟨before, hload, hscan⟩ := hbefore
  obtain ⟨preset, modulePath, overrides, after, -, -, hfile, -, hafter, hstandard, -⟩ :=
    refresh_written hholds hlayout hload hrefresh
  have hsame := hall _ _ _ _ _ _ hholds hlayout hload hrefresh preset modulePath overrides after hfile hafter
  rw [hstandard, beq_iff_eq.mp hscan] at hsame
  exact absurd hsame (by decide)

end LayerLint.Preset
