import LayerLint.Proofs.Preset.Change
import Mathlib.Data.List.TFAE
import Mathlib.Tactic.TFAE

/-!
# What a failure leaves behind

- A refresh that fails leaves the project as it was, with one exception: the backup is written before the path of the
  module is looked up and the configuration is put into words, so where there is no path or a number has too many digits
  the backup holds the present configuration instead of what it held before (`refresh_failed_tfae`).
- Making the plain configuration leaves the project as it was when it fails, and so does making that of a preset
  unless the configuration is written and then a directory cannot be made. A configuration that is already there is
  never touched (`creation_failed`).
-/

namespace LayerLint.Preset

variable {disk : Disk} {root : Location}

/-! ## Refreshing -/

/-- **A refresh that fails leaves the configuration and its backup as they were exactly when it fails for another
reason than the path of the module or a number with too many digits to be written, or the backup held the text of the
configuration already**; then it leaves everything as it was. -/
theorem refresh_failed_tfae {name : Option String} {e : PresetError}
    (h : (refresh disk root name).outcome.result = .error e) :
    [(refresh disk root name).disk.find? (configurationOf root) = disk.find? (configurationOf root) ∧
        (refresh disk root name).disk.find? (backupOf root) = disk.find? (backupOf root),
      (refresh disk root name).disk = disk,
      (∀ cause, e ≠ .modulePath cause) ∧ e ≠ .unwritable ∨ ∃ text, currentText disk (configurationOf root) = .ok text ∧
        disk.find? (backupOf root) = .ok (some (.file text.toUTF8))].TFAE := by
  have hrefreshed := refresh_refreshed disk root name
  rw [h] at hrefreshed
  generalize (refresh disk root name).disk = after at hrefreshed ⊢
  cases hrefreshed with
  | refused hother =>
    have hpath : ∀ cause, e ≠ .modulePath cause := by
      rintro cause rfl
      cases hother
    have hwritable : e ≠ .unwritable := by
      rintro rfl
      cases hother
    tfae_have 1 → 3 := fun _ => .inl ⟨hpath, hwritable⟩
    tfae_have 3 → 2 := fun _ => rfl
    tfae_have 2 → 1 := fun _ => ⟨rfl, rfl⟩
    tfae_finish
  | late hlate hchecks hbackup hpath =>
    obtain ⟨htext, -⟩ := checks_eq_ok_iff.mp hchecks
    tfae_have 1 → 3 := by
      rintro ⟨-, hsame⟩
      rw [Disk.find?_writeText hbackup] at hsame
      exact .inr ⟨_, htext, hsame.symm⟩
    tfae_have 3 → 2 := by
      rintro (hother | ⟨text, htext', hold⟩)
      · cases e with
        | modulePath cause => exact absurd rfl (hother.1 cause)
        | unwritable => exact absurd rfl hother.2
        | _ => cases hlate
      · obtain rfl : _ = text := Except.ok.inj (htext.symm.trans htext')
        exact Except.ok.inj (hbackup.symm.trans (Disk.writeText_same hold))
    tfae_have 2 → 1 := fun hsame => by rw [hsame]; exact ⟨rfl, rfl⟩
    tfae_finish

/-- The directory of a project. -/
def projectRoot : Location := ⟨true, []⟩

/-- The text of a configuration that names a preset and gives no path of the module. -/
def presetText : String := "preset: \x7bname: simple\x7d\n"

/-- A project with such a configuration and perhaps a backup, in which nothing declares the path of the module. -/
def undeclaredProject (backup : List (List String × Node)) : Disk :=
  { nodes := ([Settings.fileName], .file presetText.toUTF8) :: backup, current := [] }

/-- Without the path of the module nothing changes where the backup holds the configuration already. -/
theorem refresh_failed_tfae_backed_up :
    (refresh (undeclaredProject [([backupName], .file presetText.toUTF8)]) projectRoot none).disk =
      undeclaredProject [([backupName], .file presetText.toUTF8)] := by
  have hfails :
      (refresh (undeclaredProject [([backupName], .file presetText.toUTF8)]) projectRoot none).outcome.result =
        .error (.modulePath (.unreadable ⟨true, ["go.mod"]⟩ .notFound)) := by decide +kernel
  have hkeeps := (refresh_failed_tfae hfails).out 2 1
  exact hkeeps.mp (.inr ⟨presetText, by decide +kernel, by decide +kernel⟩)

/-- Without the path of the module a refresh fails, and a backup appears. -/
theorem refresh_failed_backup_written :
    ¬ ∀ (disk : Disk) (root : Location) (name : Option String) (e : PresetError),
      (refresh disk root name).outcome.result = .error e →
        (refresh disk root name).disk.find? (configurationOf root) = disk.find? (configurationOf root) ∧
          (refresh disk root name).disk.find? (backupOf root) = disk.find? (backupOf root) := by
  intro hall
  have hfails : (refresh (undeclaredProject []) projectRoot none).outcome.result =
      .error (.modulePath (.unreadable ⟨true, ["go.mod"]⟩ .notFound)) := by decide +kernel
  exact absurd (hall _ _ _ _ hfails).2 (by decide +kernel)

/-! ## Making a configuration -/

theorem createPlain_error {e : PresetError} (h : (createPlain disk root).outcome.result = .error e) :
    (createPlain disk root).disk = disk := by
  rw [createPlain] at h ⊢
  cases hfree : freeLocation disk root with
  | error e => rfl
  | ok location =>
    rw [hfree, Change.unchanged_ok_andThen] at h
    rw [Change.unchanged_ok_andThen]
    cases hwrite : disk.writeText location plainText with
    | error cause =>
      rw [write_of_error hwrite]
      rfl
    | ok written =>
      rw [write_of_ok hwrite, Change.unchanged_ok_andThen, (note_andThen _ _ _).2] at h
      cases h

/-- What fails after the configuration was written leaves it there. -/
theorem find?_of_placed {name : String} {preset : Preset} {placed after : Disk}
    (h : Placed disk root name preset placed) (hext : placed.Extends after) :
    after.find? (configurationOf root) ≠ disk.find? (configurationOf root) := by
  obtain ⟨modulePath, -, hwritten⟩ := h.written
  obtain ⟨kept, hkept, -⟩ := hext.find? (Disk.find?_writeText hwritten)
  rw [hkept, h.free]
  simp

theorem create_error_tfae {name : String} {withDirectories : Bool} {e : PresetError}
    (h : (create disk root name withDirectories).outcome.result = .error e) :
    [(create disk root name withDirectories).disk = disk,
      (create disk root name withDirectories).disk.find? (configurationOf root) = disk.find? (configurationOf root),
      ∀ preset placed, ¬ Placed disk root name preset placed].TFAE := by
  have hcreated := create_created disk root name withDirectories
  rw [h] at hcreated
  generalize (create disk root name withDirectories).disk = after at hcreated ⊢
  tfae_have 1 → 2 := fun hsame => by rw [hsame]
  cases hcreated with
  | refused hnone =>
    tfae_have 3 → 1 := fun _ => rfl
    tfae_have 2 → 3 := fun _ => hnone
    tfae_finish
  | inside hplaced hmade hresult =>
    tfae_have 3 → 1 := fun hnone => absurd hplaced (hnone _ _)
    tfae_have 2 → 3 := fun hsame => absurd hsame (find?_of_placed hplaced (hmade ▸ extends_makeDirectories _ _ _))
    tfae_finish

/-- Where something stands in place of the configuration, nothing is made. -/
theorem createPlain_of_exists {node : Node} (h : disk.find? (configurationOf root) = .ok (some node)) :
    (createPlain disk root).disk = disk := by
  rw [createPlain]
  cases hfree : freeLocation disk root with
  | error e => rfl
  | ok location =>
    obtain ⟨rfl, hnone⟩ := freeLocation_eq_ok_iff.mp hfree
    rw [hnone] at h
    cases h

theorem create_of_exists {node : Node} (h : disk.find? (configurationOf root) = .ok (some node)) (name : String)
    (withDirectories : Bool) : (create disk root name withDirectories).disk = disk := by
  have hnone : ∀ preset placed, ¬ Placed disk root name preset placed := fun preset placed hplaced => by
    simp [hplaced.free] at h
  cases hresult : (create disk root name withDirectories).outcome.result with
  | error e => exact ((create_error_tfae hresult).out 2 0).mp hnone
  | ok location =>
    have hcreated := create_created disk root name withDirectories
    rw [hresult] at hcreated
    generalize (create disk root name withDirectories).disk = after at hcreated ⊢
    cases hcreated with
    | alone hplaced | inside hplaced => exact absurd hplaced (hnone _ _)

/-- **Making a configuration that fails leaves everything as it was, except where the configuration of a preset could
be written**: then it stays, for a directory could not be made after it. What stands in place of the configuration is
never touched. -/
theorem creation_failed (disk : Disk) (root : Location) :
    (∀ e, (createPlain disk root).outcome.result = .error e → (createPlain disk root).disk = disk) ∧
      (∀ name withDirectories e, (create disk root name withDirectories).outcome.result = .error e →
        [(create disk root name withDirectories).disk = disk,
          (create disk root name withDirectories).disk.find? (configurationOf root) =
            disk.find? (configurationOf root),
          ∀ preset placed, ¬ Placed disk root name preset placed].TFAE) ∧
      ∀ node, disk.find? (configurationOf root) = .ok (some node) →
        (createPlain disk root).disk = disk ∧
          ∀ name withDirectories, (create disk root name withDirectories).disk = disk := by
  refine ⟨?_, ?_, ?_⟩
  · intro e hfails
    exact createPlain_error hfails
  · intro name withDirectories e hfails
    exact create_error_tfae hfails
  · intro node hnode
    exact ⟨createPlain_of_exists hnode, create_of_exists hnode⟩

/-- Without the path of the module, and where there is a configuration already, nothing is made. -/
theorem creation_failed_early :
    (createPlain (undeclaredProject []) projectRoot).disk = undeclaredProject [] ∧
      (create ⟨[], []⟩ projectRoot "simple" true).disk = ⟨[], []⟩ ∧
      (create (undeclaredProject []) projectRoot "simple" true).disk = undeclaredProject [] := by
  obtain ⟨hplain, -, hexists⟩ := creation_failed (undeclaredProject []) projectRoot
  obtain ⟨-, hpreset, -⟩ := creation_failed ⟨[], []⟩ projectRoot
  refine ⟨hplain (.alreadyExists Settings.fileName) (by decide +kernel), ?_, ?_⟩
  · have hfails : (create ⟨[], []⟩ projectRoot "simple" true).outcome.result =
        .error (.modulePath (.unreadable ⟨true, ["go.mod"]⟩ .notFound)) := by decide +kernel
    have hkeeps := (hpreset _ _ _ hfails).out 1 0
    exact hkeeps.mp (by decide +kernel)
  · exact (hexists (.file presetText.toUTF8) (by decide +kernel)).2 _ _

/-- A project whose module has a path, with a file where a directory of the preset has to be. -/
def blockedProject : Disk :=
  { nodes := [([ModulePath.fileName], .file "module m\n".toUTF8), (["internal"], .file "".toUTF8)], current := [] }

/-- Where a directory cannot be made the configuration stays. -/
theorem creation_failed_left :
    ¬ ∀ (disk : Disk) (root : Location) (name : String) (withDirectories : Bool) (e : PresetError),
      (create disk root name withDirectories).outcome.result = .error e →
        (create disk root name withDirectories).disk = disk := by
  intro hall
  have hfails : (create blockedProject projectRoot "simple" true).outcome.result =
      .error (.file ⟨.alreadyExists, ⟨true, ["internal"]⟩⟩) := by decide +kernel
  have hsame := congrArg (·.find? (configurationOf projectRoot)) (hall _ _ _ _ _ hfails)
  exact absurd hsame (by decide +kernel)

end LayerLint.Preset
