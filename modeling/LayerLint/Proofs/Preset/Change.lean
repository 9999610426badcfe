import LayerLint.Preset.File
import LayerLint.Proofs.Disk.Write
import LayerLint.Proofs.Result

/-!
# The ways in which configurations are made

- An operation that fails is followed by nothing, one that succeeds by the next on the disk that it leaves
  (`Change.andThen_of_error`, `Change.andThen_of_ok`).
- `Created` and `Refreshed` list how `create` and `refresh` end: which checks passed, what was written, and what
  the disk is then (`create_created`, `refresh_refreshed`).
-/

namespace LayerLint.Preset

open Yaml Result

/-! ## One operation after the other -/

namespace Change

variable {α β : Type} {disk : Disk} {e : PresetError} {a : α} {first : Change α} {next : Disk → α → Change β}

theorem andThen_of_error (h : first.outcome.result = .error e) :
    (first.andThen next).disk = first.disk ∧ (first.andThen next).outcome.result = .error e := by
  simp [andThen, h]

theorem andThen_of_ok (h : first.outcome.result = .ok a) :
    (first.andThen next).disk = (next first.disk a).disk ∧
      (first.andThen next).outcome.result = (next first.disk a).outcome.result := by
  simp [andThen, h]

@[simp] theorem unchanged_disk (disk : Disk) (result : Except PresetError α) : (unchanged disk result).disk = disk :=
  rfl

@[simp] theorem unchanged_result (disk : Disk) (result : Except PresetError α) :
    (unchanged disk result).outcome.result = result := rfl

@[simp] theorem unchanged_error_andThen (next : Disk → α → Change β) :
    (unchanged disk (.error e)).andThen next = unchanged disk (.error e) := rfl

@[simp] theorem unchanged_ok_andThen (next : Disk → α → Change β) :
    (unchanged disk (.ok a)).andThen next = next disk a := by
  simp [andThen, unchanged, Logged.ofExcept]

/-- An operation with its result replaced. -/
theorem andThen_unchanged (first : Change α) (f : α → β) :
    (first.andThen fun disk a => unchanged disk (.ok (f a))).disk = first.disk ∧
      (first.andThen fun disk a => unchanged disk (.ok (f a))).outcome.result = first.outcome.result.map f := by
  cases h : first.outcome.result with
  | error e => exact andThen_of_error h
  | ok a => exact andThen_of_ok h

end Change

theorem write_of_ok {disk written : Disk} {location : Location} {text : String}
    (h : disk.writeText location text = .ok written) : write disk location text = .unchanged written (.ok ()) := by
  simp [write, h, Change.unchanged]

theorem write_of_error {disk : Disk} {location : Location} {text : String} {cause : FileError}
    (h : disk.writeText location text = .error cause) :
    write disk location text = .unchanged disk (.error (.file ⟨cause, location⟩)) := by
  simp [write, h]

/-! ## Making a configuration -/

/-- The place of the configuration of a project. -/
def configurationOf (root : Location) : Location := root.join Settings.fileName

/-- The place of the former configuration of a project. -/
def backupOf (root : Location) : Location := (configurationOf root).withName backupName

/-- The checks before a configuration is made pass and it is written: there is no configuration yet, and the
project declares the path of its module. -/
structure Placed (disk : Disk) (root : Location) (name : String) (preset : Preset) (placed : Disk) : Prop where
  known : ofName? name = some preset
  free : disk.find? (configurationOf root) = .ok none
  written : ∃ modulePath, ModulePath.detect disk root = .ok modulePath ∧
    disk.writeText (configurationOf root) (createdHeader name ++ preset.render modulePath none) = .ok placed

/-- The ways in which making a configuration ends. -/
inductive Created (disk : Disk) (root : Location) (name : String) :
    Bool → Disk → Except PresetError Location → Prop where
  /-- A check fails, or the configuration cannot be written. -/
  | refused {withDirectories : Bool} {e : PresetError} (h : ∀ preset placed, ¬ Placed disk root name preset placed) :
    Created disk root name withDirectories disk (.error e)
  /-- The configuration is written, and directories are not asked for. -/
  | alone {preset : Preset} {placed : Disk} (h : Placed disk root name preset placed) :
    Created disk root name false placed (.ok (configurationOf root))
  /-- The configuration is written, and then the directories are made as far as they can be. -/
  | inside {preset : Preset} {placed : Disk} {made : Change Unit} {result : Except PresetError Location}
    (h : Placed disk root name preset placed)
    (hmade : makeDirectories placed root (preset.requiredDirectories.map (·.1)) = made)
    (hresult : made.outcome.result.map (fun _ => configurationOf root) = result) :
    Created disk root name true made.disk result

theorem freeLocation_eq_ok_iff {disk : Disk} {root location : Location} :
    freeLocation disk root = .ok location ↔ location = configurationOf root ∧ disk.find? location = .ok none := by
  simp only [freeLocation, Disk.pathExists_eq, configurationOf]
  cases hfind : disk.find? (root.join Settings.fileName) with
  | error cause => simp +contextual [Except.map, hfind]
  | ok found => cases found <;> simp +contextual [Except.map, hfind, eq_comm]

theorem create_created (disk : Disk) (root : Location) (name : String) (withDirectories : Bool) :
    Created disk root name withDirectories (create disk root name withDirectories).disk
      (create disk root name withDirectories).outcome.result := by
  rw [create]
  cases hname : ofName? name with
  | none => exact .refused fun preset placed h => by simp [h.known] at hname
  | some preset =>
    cases hfree : freeLocation disk root with
    | error e =>
      refine .refused fun preset placed h => ?_
      rw [freeLocation_eq_ok_iff.mpr ⟨rfl, h.free⟩] at hfree
      cases hfree
    | ok location =>
      obtain ⟨rfl, hnone⟩ := freeLocation_eq_ok_iff.mp hfree
      cases hdetect : ModulePath.detect disk root with
      | error cause =>
        refine .refused fun preset placed h => ?_
        obtain ⟨modulePath, hmodule, -⟩ := h.written
        simp [hmodule] at hdetect
      | ok modulePath =>
        simp only [bind, Except.bind, Except.mapError, pure, Except.pure, Change.unchanged_ok_andThen]
        cases hwrite : disk.writeText (configurationOf root) (createdHeader name ++ preset.render modulePath none) with
        | error cause =>
          rw [write_of_error hwrite]
          refine .refused fun preset' placed h => ?_
          obtain ⟨modulePath', hmodule, hwritten⟩ := h.written
          obtain rfl : preset = preset' := by simpa [hname] using h.known
          obtain rfl : modulePath = modulePath' := by simpa [hdetect] using hmodule
          simp [hwrite] at hwritten
        | ok placed =>
          have hplaced : Placed disk root name preset placed := ⟨hname, hnone, modulePath, hdetect, hwrite⟩
          rw [write_of_ok hwrite, Change.unchanged_ok_andThen]
          cases withDirectories with
          | false => exact .alone hplaced
          | true =>
            obtain ⟨hdisk, hresult⟩ := Change.andThen_unchanged
              (makeDirectories placed root (preset.requiredDirectories.map (·.1))) fun _ => configurationOf root
            rw [if_pos rfl, hdisk, hresult]
            exact .inside hplaced rfl rfl

/-! ## Bringing a configuration up to date -/

/-- The text that a refresh writes. -/
def refreshedText (preset : Preset) (modulePath : String) (overrides : Option (Value Nat)) : String :=
  refreshedHeader preset.name ++ preset.render modulePath (overrides.map fun v => v.remark some)

/-- The checks before a refresh writes anything: there is a configuration, it is a document, it names a preset that
exists unless one is asked for, and its overrides are a map. -/
def checks (disk : Disk) (root : Location) (name : Option String) :
    Except PresetError (String × List (Scalar × Value Nat) × Preset × Option (Value Nat)) := do
  let text ← currentText disk (configurationOf root)
  let entries ← entriesOfText text
  let preset ← chosen entries name
  return (text, entries, preset, ← overridesOf entries)

/-- The error comes after the checks and the backup: there is no path of the module, or something that is to be written
cannot be. -/
def isLate : PresetError → Bool
  | .modulePath _ | .unwritable => true
  | _ => false

/-- The ways in which a refresh ends. -/
inductive Refreshed (disk : Disk) (root : Location) (name : Option String) :
    Disk → Except PresetError String → Prop where
  /-- A check fails, or the former configuration cannot be written to the backup. -/
  | refused {e : PresetError} (h : isLate e = false) : Refreshed disk root name disk (.error e)
  /-- The backup is written, and then there is no path of the module or not all can be written. -/
  | late {text : String} {entries : List (Scalar × Value Nat)} {preset : Preset}
    {overrides : Option (Value Nat)} {backedUp : Disk} {e : PresetError} (h : isLate e = true)
    (checked : checks disk root name = .ok (text, entries, preset, overrides))
    (backup : disk.writeText (backupOf root) text = .ok backedUp)
    (path : writtenPath backedUp root entries overrides = .error e) : Refreshed disk root name backedUp (.error e)
  /-- The backup and the configuration are written. -/
  | written {text : String} {entries : List (Scalar × Value Nat)} {preset : Preset}
    {overrides : Option (Value Nat)} {backedUp after : Disk} {modulePath : String}
    (checked : checks disk root name = .ok (text, entries, preset, overrides))
    (backup : disk.writeText (backupOf root) text = .ok backedUp)
    (path : writtenPath backedUp root entries overrides = .ok modulePath)
    (write : backedUp.writeText (configurationOf root) (refreshedText preset modulePath overrides) = .ok after) :
    Refreshed disk root name after (.ok preset.name)

theorem note_andThen (disk : Disk) (message : String) {α : Type} (next : Disk → Unit → Change α) :
    ((note disk message).andThen next).disk = (next disk ()).disk ∧
      ((note disk message).andThen next).outcome.result = (next disk ()).outcome.result :=
  Change.andThen_of_ok rfl

/-- Making directories extends the disk, also when it fails. -/
theorem extends_makeDirectories (disk : Disk) (root : Location) (paths : List String) :
    disk.Extends (makeDirectories disk root paths).disk := by
  induction paths generalizing disk with
  | nil => exact .refl disk
  | cons path rest ih =>
    have hfirst := Disk.extends_makeDirectories disk (root.join path)
    rw [makeDirectories]
    generalize disk.makeDirectories (root.join path) = first at hfirst ⊢
    obtain ⟨made, result⟩ := first
    cases result with
    | error e => exact hfirst
    | ok done =>
      simp only [Except.mapError, Change.unchanged_ok_andThen]
      rw [(note_andThen _ _ _).1]
      exact hfirst.trans (ih made)

theorem currentText_eq_ok_iff {disk : Disk} {location : Location} {text : String} :
    currentText disk location = .ok text ↔ disk.isFile location = .ok true ∧ disk.readText location = .ok text := by
  rw [currentText]
  cases disk.isFile location with
  | error cause => simp
  | ok found => cases found <;> simp [mapError_eq_ok]

theorem writtenPath_eq_ok_iff {disk : Disk} {root : Location} {entries : List (Scalar × Value Nat)}
    {overrides : Option (Value Nat)} {modulePath : String} :
    writtenPath disk root entries overrides = .ok modulePath ↔
      modulePathFor disk root entries = .ok modulePath ∧ ∀ v ∈ overrides, v.isWritable = true := by
  have hall : overrides.all (·.isWritable) = true ↔ ∀ v ∈ overrides, v.isWritable = true := by
    cases overrides <;> simp
  rw [writtenPath, ← hall]
  cases modulePathFor disk root entries with
  | error e => simp
  | ok path =>
    rw [ok_bind]
    split <;> simp_all [pure, Except.pure, throw, throwThe, MonadExceptOf.throw]

/-- All errors after the checks and the backup are late. -/
theorem not_fails_writtenPath {disk : Disk} {root : Location} {entries : List (Scalar × Value Nat)}
    {overrides : Option (Value Nat)} : ¬ Fails (fun e => !isLate e) (writtenPath disk root entries overrides) := by
  have hpath : ¬ Fails (fun e => !isLate e) (modulePathFor disk root entries) := by
    rw [modulePathFor]
    split
    · split <;> simp [isLate]
    · rw [fails_mapError]
      simp [Fails, isLate]
  rw [writtenPath, fails_bind, or_iff_right hpath]
  rintro ⟨path, -, h⟩
  split at h
  · exact not_fails_pure h
  · simp [throw, throwThe, MonadExceptOf.throw, isLate] at h

theorem checks_eq_ok_iff {disk : Disk} {root : Location} {name : Option String} {text : String}
    {entries : List (Scalar × Value Nat)} {preset : Preset} {overrides : Option (Value Nat)} :
    checks disk root name = .ok (text, entries, preset, overrides) ↔
      currentText disk (configurationOf root) = .ok text ∧ entriesOfText text = .ok entries ∧
        chosen entries name = .ok preset ∧ overridesOf entries = .ok overrides := by
  simp only [checks, bind, Except.bind, pure, Except.pure]
  grind

theorem not_fails_currentText {disk : Disk} {location : Location} : ¬ Fails isLate (currentText disk location) := by
  rw [currentText]
  split
  · simp [isLate]
  · simp [isLate]
  · rw [fails_mapError]
    rintro ⟨e, -, h⟩
    cases e <;> simp [isLate] at h

theorem not_fails_entriesOfText {text : String} : ¬ Fails isLate (entriesOfText text) := by
  rw [entriesOfText]
  split
  · simp [isLate]
  · simp
  · split
    · simp
    · split <;> simp [isLate]

theorem not_fails_known {name : String} : ¬ Fails isLate (known name) := by
  rw [known]
  split <;> simp [isLate]

theorem not_fails_chosen {entries : List (Scalar × Value Nat)} {name : Option String} :
    ¬ Fails isLate (chosen entries name) := by
  simp only [chosen]
  split
  · exact not_fails_known
  · simp [isLate]
  · split
    · exact not_fails_known
    · simp [isLate]

theorem not_fails_overridesOf {entries : List (Scalar × Value Nat)} : ¬ Fails isLate (overridesOf entries) := by
  rw [overridesOf]
  split <;> simp [isLate]

/-- No check fails with an error that comes later. -/
theorem not_fails_checks {disk : Disk} {root : Location} {name : Option String} :
    ¬ Fails isLate (checks disk root name) := by
  simp only [checks, fails_bind, not_fails_currentText, not_fails_entriesOfText, not_fails_chosen,
    not_fails_overridesOf, not_fails_pure, and_false, exists_false, or_self, not_false_eq_true]

/-- The steps of a refresh: the checks, the backup, the path of the module and the configuration. -/
theorem refresh_eq (disk : Disk) (root : Location) (name : Option String) :
    refresh disk root name = (Change.unchanged disk (checks disk root name)).andThen fun disk found =>
      (write disk (backupOf root) found.1).andThen fun disk _ =>
        (Change.unchanged disk (writtenPath disk root found.2.1 found.2.2.2)).andThen fun disk modulePath =>
          (write disk (configurationOf root) (refreshedText found.2.2.1 modulePath found.2.2.2)).andThen fun disk _ =>
            (note disk s!"Refreshed {configurationOf root} with preset {found.2.2.1.name}").andThen fun disk _ =>
              .unchanged disk (.ok found.2.2.1.name) := rfl

theorem refresh_refreshed (disk : Disk) (root : Location) (name : Option String) :
    Refreshed disk root name (refresh disk root name).disk (refresh disk root name).outcome.result := by
  rw [refresh_eq]
  cases hchecks : checks disk root name with
  | error e => exact .refused (Bool.eq_false_iff.mpr fun hlate => not_fails_checks ⟨e, hchecks, hlate⟩)
  | ok found =>
    obtain ⟨text, entries, preset, overrides⟩ := found
    obtain ⟨htext, -⟩ := checks_eq_ok_iff.mp hchecks
    rw [Change.unchanged_ok_andThen]
    dsimp only
    cases hbackup : disk.writeText (backupOf root) text with
    | error cause =>
      rw [write_of_error hbackup]
      exact .refused rfl
    | ok backedUp =>
      rw [write_of_ok hbackup, Change.unchanged_ok_andThen]
      cases hpath : writtenPath backedUp root entries overrides with
      | error e =>
        have hlate : isLate e = true := by
          by_contra hnot
          exact not_fails_writtenPath ⟨e, hpath, by simpa using hnot⟩
        exact .late hlate hchecks hbackup hpath
      | ok modulePath =>
        -- the configuration is still a file, so it can be written
        obtain ⟨content, hfile⟩ := Disk.isFile_eq_ok_true_iff.mp (currentText_eq_ok_iff.mp htext).1
        obtain ⟨kept, hkept, hkind⟩ := (Disk.extends_writeText hbackup).find? hfile
        obtain ⟨content', rfl⟩ := hkind.file
        obtain ⟨after, hafter⟩ := Disk.exists_writeText hkept (refreshedText preset modulePath overrides)
        rw [Change.unchanged_ok_andThen, write_of_ok hafter]
        exact .written hchecks hbackup hpath hafter

end LayerLint.Preset
