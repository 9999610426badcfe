import LayerLint.Proofs.Preset.Kept
import LayerLint.Proofs.Preset.Parts
import LayerLint.Proofs.Yaml.ReadBack.Unshared

/-!
# Configurations read back

`IsLasting` overrides are plain data with legible texts and nothing shared. The text of a configuration with such
overrides is a document with their entries (`ofText?_rendered`), so what is found in it is the path of the module, the
preset and the overrides that were written (`modulePathFor_of_plain`, `chosen_of_plain`, `overridesOf_of_plain`). The
overrides that are found last again and are written alike (`isLasting_of_plain`, `refreshedText_of_plain`). So a refresh
of what a refresh has written writes it again (`refresh_of_written`, `written_reads_back`).
-/

namespace LayerLint.Preset

open Yaml Result

/-! ## Documents -/

/-- Overrides that read back: a map of plain data with legible texts, in which no list or map occurs in several
places. -/
structure IsLasting (overrides : Value Nat) : Prop where
  fields : ∃ mark fields, overrides = .map mark fields ∧ fields ≠ []
  clear : overrides.IsClear 0
  unshared : (overrides.remark some).IsUnshared

/-- The path of a module reads back. -/
def IsLastingPath (modulePath : String) : Prop := (Scalar.text modulePath).isLegible 2

theorem isLastingPath_of_detect {disk : Disk} {root : Location} {modulePath : String}
    (h : ModulePath.detect disk root = .ok modulePath) : IsLastingPath modulePath :=
  isLegibleText_of_not_mem (keepsBreaks_of_detect h) (by decide) false

section Document

variable {preset : Preset} {modulePath : String} {overrides : Option (Value Nat)}

/-- The entries of a document, with the marks of the overrides. -/
def markedEntries (preset : Preset) (modulePath : String) (overrides : Option (Value Nat)) :
    List (Scalar × Value (Option Nat)) :=
  [(.text "module", (Value.text modulePath).remark fun _ => none),
    (.text "preset", preset.configuration.remark fun _ => none)] ++
      overrides.toList.map fun v => (.text "overrides", v.remark some)

theorem document_eq (preset : Preset) (modulePath : String) (overrides : Option (Value Nat)) :
    preset.document modulePath (overrides.map fun v => v.remark some) =
      .map none (markedEntries preset modulePath overrides) := by
  cases overrides <;> rfl

theorem isBasic_document (hpreset : preset ∈ all) (hoverrides : ∀ v ∈ overrides, IsLasting v) :
    (Value.map none (markedEntries preset modulePath overrides)).IsBasic := by
  have hconfiguration := (isBasic_remark (fun _ => (none : Option Nat)) _).mpr (isClear_configuration hpreset).basic
  have hmodule : ((Value.text modulePath).remark fun _ => (none : Option Nat)).IsBasic := by
    simp [Value.text, Value.remark, Value.IsBasic, Scalar.IsBasic]
  rw [Value.IsBasic]
  cases overrides with
  | none =>
    exact ⟨by simp [markedEntries, DistinctKeys], trivial, hmodule, trivial, hconfiguration, trivial⟩
  | some v =>
    have hv := (isBasic_remark some v).mpr (hoverrides v rfl).clear.basic
    exact ⟨by simp [markedEntries, DistinctKeys], trivial, hmodule, trivial, hconfiguration, trivial, hv, trivial⟩

theorem isLegible_document (hpreset : preset ∈ all) (hpath : IsLastingPath modulePath)
    (hoverrides : ∀ v ∈ overrides, IsLasting v) : isLegibleEntries 0 (markedEntries preset modulePath overrides) := by
  have hkey : ∀ key : String, KeepsBreaks key → key.length ≤ 102 → (Scalar.text key).isLegibleKey 0 :=
    fun key hkey hshort => isLegibleKey_of_short hkey hshort (by decide)
  have hmodule : ∀ inValue, ((Value.text modulePath).remark fun _ => (none : Option Nat)).isLegible 0 inValue := by
    intro inValue
    rw [isLegible_remark, Value.text, Value.isLegible]
    exact hpath
  have hconfiguration : ∀ inValue, (preset.configuration.remark fun _ => (none : Option Nat)).isLegible 0 inValue := by
    intro inValue
    rw [isLegible_remark]
    exact (isClear_configuration hpreset).legible inValue
  have hothers : isLegibleEntries 0 (overrides.toList.map fun v => (Scalar.text "overrides", v.remark some)) := by
    cases overrides with
    | none => rfl
    | some v =>
      rw [Option.toList_some, List.map_singleton, isLegibleEntries, hkey _ (by decide) (by decide), isLegible_remark,
        (hoverrides v rfl).clear.legible]
      rfl
  rw [markedEntries, List.cons_append, List.cons_append, List.nil_append, isLegibleEntries, isLegibleEntries,
    hkey _ (by decide) (by decide), hkey _ (by decide) (by decide), hmodule, hconfiguration, hothers]
  rfl

theorem isUnshared_document (hpreset : preset ∈ all) (hoverrides : ∀ v ∈ overrides, IsLasting v) :
    (Value.map none (markedEntries preset modulePath overrides)).IsUnshared := by
  have hmodule : (Value.text modulePath).IsBasic := by simp [Value.text, Value.IsBasic, Scalar.IsBasic]
  have hconfiguration := (isClear_configuration hpreset).basic
  rw [Value.IsUnshared, Value.encounter, Encounters.knows, Option.any_none, if_neg (by simp), Encounters.meet,
    markedEntries, List.cons_append, List.cons_append, List.nil_append, encounterEntries, encounterEntries,
    encounter_unmarked _ _ hmodule, encounter_unmarked _ _ hconfiguration]
  cases overrides with
  | none => rfl
  | some v => exact (hoverrides v rfl).unshared

/-- **A configuration is read from its text**, behind a header of remarks. -/
theorem ofText?_rendered (hpreset : preset ∈ all) (hpath : IsLastingPath modulePath)
    (hoverrides : ∀ v ∈ overrides, IsLasting v) {header : String} (hheader : IsRemarks header) :
    (header ++ preset.render modulePath (overrides.map fun v => v.remark some)).toList.all isWritten ∧
      ∃ w, Value.ofText? (header ++ preset.render modulePath (overrides.map fun v => v.remark some)) = .ok (some w) ∧
        w.plain = .map () (writtenEntries preset modulePath overrides) ∧ (w.remark some).IsUnshared := by
  have hremarks : IsRemarks (if (overrides.map fun v => v.remark some).isNone then exampleOverrides else "") := by
    split
    · exact isRemarks_exampleOverrides
    · exact isRemarks_empty
  rw [render, ← String.append_assoc, ← document_plain, document_eq]
  exact ofText?_render (by simp [markedEntries]) (isBasic_document hpreset hoverrides)
    (isUnshared_document hpreset hoverrides) (isLegible_document hpreset hpath hoverrides) hheader hremarks

/-- The document of a configuration with such overrides has no cycles to open. -/
theorem openDocument_of_plain (hpreset : preset ∈ all) (hoverrides : ∀ v ∈ overrides, IsLasting v) {w : Value Nat}
    (hplain : w.plain = .map () (writtenEntries preset modulePath overrides)) : Settings.openDocument w = w := by
  have hbasic : w.IsBasic := by
    have hdocument : (Value.map none (markedEntries preset modulePath overrides)).IsBasic :=
      isBasic_document hpreset hoverrides
    rwa [← isBasic_remark (fun _ => ()), ← document_eq, ← Value.plain, document_plain, ← hplain, Value.plain,
      isBasic_remark] at hdocument
  exact Settings.openDocument_induction (Q := fun f => ∀ {w : Value Nat}, w.IsBasic → f w = w)
    (fun _ hinside _ hw => Value.openedWith_of_isBasic hinside hw) hbasic

end Document

/-! ## One refresh after the other -/

section Refresh

variable {disk backedUp after : Disk} {root : Location} {name : Option String} {text : String}
  {entries : List (Scalar × Value Nat)} {preset : Preset} {overrides : Option (Value Nat)} {modulePath : String}

/-- A refresh whose checks pass writes the backup and the configuration. -/
theorem refresh_of_checks (hchecks : checks disk root name = .ok (text, entries, preset, overrides))
    (hbackup : disk.writeText (backupOf root) text = .ok backedUp)
    (hpath : writtenPath backedUp root entries overrides = .ok modulePath)
    (hwrite : backedUp.writeText (configurationOf root) (refreshedText preset modulePath overrides) = .ok after) :
    (refresh disk root name).disk = after ∧ (refresh disk root name).outcome.result = .ok preset.name := by
  rw [refresh_eq, hchecks, Change.unchanged_ok_andThen]
  dsimp only
  rw [write_of_ok hbackup, Change.unchanged_ok_andThen, hpath, Change.unchanged_ok_andThen, write_of_ok hwrite,
    Change.unchanged_ok_andThen]
  exact note_andThen _ _ _

/-- A file that holds a text of characters that are written reads as this text. -/
theorem currentText_of_find? {written : String} (hwritten : written.toList.all isWritten)
    (hfile : disk.find? (configurationOf root) = .ok (some (.file written.toUTF8))) :
    currentText disk (configurationOf root) = .ok written := by
  refine currentText_eq_ok_iff.mpr ⟨Disk.isFile_eq_ok_true_iff.mpr ⟨_, hfile⟩,
    Disk.readText_of_find? hfile fun hmem => ?_⟩
  exact absurd (List.all_eq_true.mp hwritten _ hmem) (by decide)

/-- What is found in a document that reads as the document of a preset. -/
theorem lookup?_of_plain
    (hplain : Value.remarkEntries (fun _ => ()) entries = writtenEntries preset modulePath overrides) (key : Scalar) :
    (lookup? key entries).map Value.plain = lookup? key (writtenEntries preset modulePath overrides) := by
  rw [← hplain, lookup?_plain]

/-- A value that reads as a text is one. -/
theorem eq_text_of_plain {v : Value Nat} {text : String} (h : v.plain = .text text) :
    ∃ mark, v = .scalar mark (.text text) := by
  cases v with
  | scalar mark s =>
    rw [Value.plain, Value.remark, Value.text, Value.scalar.injEq] at h
    exact ⟨mark, by rw [h.2]⟩
  | list mark items | map mark entries | set mark members | pairs mark items | cycle mark isMap =>
    simp [Value.plain, Value.remark, Value.text] at h

/-- A value that reads as a map is one. -/
theorem eq_map_of_plain {v : Value Nat} {fields : Settings.Section} (h : v.plain = .map () fields) :
    ∃ mark found, v = .map mark found ∧ Value.remarkEntries (fun _ => ()) found = fields := by
  cases v with
  | map mark entries =>
    rw [Value.plain, Value.remark, Value.map.injEq] at h
    exact ⟨mark, entries, rfl, h.2⟩
  | scalar mark s | list mark items | set mark members | pairs mark items | cycle mark isMap =>
    simp [Value.plain, Value.remark] at h

theorem ofName?_of_mem (hpreset : preset ∈ all) : ofName? preset.name = some preset ∧ preset.name ≠ "" := by
  simp only [all, List.mem_cons, List.not_mem_nil, or_false] at hpreset
  rcases hpreset with rfl | rfl | rfl <;> exact ⟨rfl, by decide⟩

/-- What does not count as nothing is kept. -/
theorem filter_of_not_isFalsy {v : Value Nat} (h : v.isFalsy = false) : (some v).filter (!·.isFalsy) = some v := by
  simp [Option.filter, h]

/-- The preset of such a document. -/
theorem chosen_of_plain (hpreset : preset ∈ all)
    (hplain : Value.remarkEntries (fun _ => ()) entries = writtenEntries preset modulePath overrides) :
    ∀ again ∈ [none, some preset.name], chosen entries again = .ok preset := by
  obtain ⟨hname, hne⟩ := ofName?_of_mem hpreset
  have hknown : known preset.name = .ok preset := by rw [known, hname]
  have hlookup := lookup?_of_plain hplain (.text "preset")
  rw [lookup_preset, Option.map_eq_some_iff] at hlookup
  obtain ⟨v, hv, hsection⟩ := hlookup
  obtain ⟨mark, fields, rfl, hfields⟩ := eq_map_of_plain (hsection.trans preset.configuration_eq_map)
  have hfield : (lookup? (.text "name") fields).map Value.plain = some (.text preset.name) := by
    rw [← lookup?_plain, hfields]
    rfl
  obtain ⟨found, hfound, htext⟩ := Option.map_eq_some_iff.mp hfield
  obtain ⟨mark', rfl⟩ := eq_text_of_plain htext
  have hfalsy : (Value.scalar mark' (.text preset.name) : Value Nat).isFalsy = false := by
    simpa [Value.isFalsy, Scalar.isFalsy] using hne
  intro again hagain
  rcases List.mem_cons.mp hagain with rfl | hagain
  · simp only [chosen, hv, hfound, filter_of_not_isFalsy hfalsy]
    exact hknown
  · obtain rfl := List.mem_singleton.mp hagain
    rw [chosen]
    exact hknown

/-- The overrides of such a document. -/
theorem overridesOf_of_plain (hlasting : ∀ v ∈ overrides, IsLasting v)
    (hplain : Value.remarkEntries (fun _ => ()) entries = writtenEntries preset modulePath overrides) :
    ∃ found, overridesOf entries = .ok found ∧ found.map Value.plain = overrides.map Value.plain ∧
      ∀ v ∈ found, (∃ mark fields, v = .map mark fields ∧ fields ≠ []) ∧ ∃ entry ∈ entries, entry.2 = v := by
  have hlookup := lookup?_of_plain hplain (.text "overrides")
  rw [lookup_overrides] at hlookup
  cases overrides with
  | none =>
    rw [Option.map_none, Option.map_eq_none_iff] at hlookup
    exact ⟨none, by rw [overridesOf, hlookup], rfl, by simp⟩
  | some given =>
    obtain ⟨found, hfound, hsame⟩ := Option.map_eq_some_iff.mp hlookup
    obtain ⟨mark, fields, rfl, hne⟩ := (hlasting given rfl).fields
    obtain ⟨mark', fields', rfl, hfields⟩ := eq_map_of_plain hsame
    have hne' : fields' ≠ [] := by
      rintro rfl
      cases fields with
      | nil => exact hne rfl
      | cons entry fields => cases hfields
    refine ⟨some (.map mark' fields'), ?_, congrArg some hsame, fun v hv => ?_⟩
    · rw [overridesOf, hfound]
      simp [hne']
    · obtain rfl := Option.some.inj hv
      exact ⟨⟨mark', fields', rfl, hne'⟩, mem_of_lookup? hfound⟩

/-- The path of the module of such a document. -/
theorem modulePathFor_of_plain (hne : modulePath ≠ "")
    (hplain : Value.remarkEntries (fun _ => ()) entries = writtenEntries preset modulePath overrides) :
    modulePathFor disk root entries = .ok modulePath := by
  have hlookup := lookup?_of_plain hplain (.text "module")
  rw [lookup_module, Option.map_eq_some_iff] at hlookup
  obtain ⟨v, hv, htext⟩ := hlookup
  obtain ⟨mark, rfl⟩ := eq_text_of_plain htext
  have hfalsy : (Value.scalar mark (.text modulePath) : Value Nat).isFalsy = false := by
    simpa [Value.isFalsy, Scalar.isFalsy] using hne
  rw [modulePathFor, hv, filter_of_not_isFalsy hfalsy]
  rfl

/-- Overrides that are read back last as those did that were written. -/
theorem isLasting_of_plain {v v' : Value Nat} (h : IsLasting v) (hplain : v'.plain = v.plain)
    (hfields : ∃ mark fields, v' = .map mark fields ∧ fields ≠ []) (hunshared : (v'.remark some).IsUnshared) :
    IsLasting v' where
  fields := hfields
  clear :=
    { basic := (isBasic_remark (fun _ => ()) v').mp <| by
        have hbasic := (isBasic_remark (fun _ => ()) v).mpr h.clear.basic
        rwa [← Value.plain, ← hplain] at hbasic
      legible := fun inValue => by
        rw [← isLegible_remark (fun _ => ()) v', ← Value.plain, hplain, Value.plain, isLegible_remark]
        exact h.clear.legible inValue }
  unshared := hunshared

/-- Overrides that differ in their marks only are written alike. -/
theorem refreshedText_of_plain {overrides' : Option (Value Nat)} (hpreset : preset ∈ all)
    (h : ∀ v ∈ overrides, IsLasting v) (h' : ∀ v ∈ overrides', IsLasting v)
    (hplain : overrides'.map Value.plain = overrides.map Value.plain) :
    refreshedText preset modulePath overrides' = refreshedText preset modulePath overrides := by
  have hnode : ∀ overrides : Option (Value Nat), (∀ v ∈ overrides, IsLasting v) →
      Node.ofValue (preset.document modulePath (overrides.map fun v => v.remark some)) =
        (Value.map () (writtenEntries preset modulePath overrides)).toNode := by
    intro overrides h
    rw [← document_plain, Value.plain, toNode_remark, document_eq]
    exact ofValue_unshared (isBasic_document hpreset h) (isUnshared_document hpreset h)
  have hentries : writtenEntries preset modulePath overrides' = writtenEntries preset modulePath overrides := by
    cases overrides' <;> cases overrides <;> simp_all [writtenEntries]
  have hnone : (overrides'.map fun v => v.remark some).isNone = (overrides.map fun v => v.remark some).isNone := by
    cases overrides' <;> cases overrides <;> simp_all
  rw [refreshedText, refreshedText, render, render, hnode _ h, hnode _ h', hentries, hnone]

/-- A refresh of the text that a refresh has written writes it again. -/
theorem refresh_of_written (hpreset : preset ∈ all) (hpath : IsLastingPath modulePath) (hne : modulePath ≠ "")
    (hoverrides : ∀ v ∈ overrides, IsLasting v)
    (hfile : disk.find? (configurationOf root) =
      .ok (some (.file (refreshedText preset modulePath overrides).toUTF8)))
    (hbackup : ∃ content, disk.find? (backupOf root) = .ok (some (.file content)))
    {again : Option String} (hagain : again ∈ [none, some preset.name]) :
    (refresh disk root again).outcome.result = .ok preset.name ∧
      (refresh disk root again).disk.find? (configurationOf root) =
        .ok (some (.file (refreshedText preset modulePath overrides).toUTF8)) := by
  obtain ⟨hwritten, w, hw, hplain, hunshared⟩ :=
    ofText?_rendered hpreset hpath hoverrides (isRemarks_refreshedHeader hpreset)
  obtain ⟨mark, entries, rfl, hentries⟩ := eq_map_of_plain hplain
  obtain ⟨found, hfound, hsame, hmem⟩ := overridesOf_of_plain hoverrides hentries
  have hlasting : ∀ v ∈ found, IsLasting v := by
    intro v hv
    obtain ⟨hfields, entry, hentry, rfl⟩ := hmem v hv
    have hplainv : entry.2.plain ∈ overrides.map Value.plain := hsame ▸ Option.mem_map_of_mem _ hv
    obtain ⟨given, hgiven, hgivenPlain⟩ := Option.mem_map.mp hplainv
    refine isLasting_of_plain (hoverrides given hgiven) hgivenPlain.symm hfields ?_
    refine isUnshared_of_mem hunshared (entry.1, entry.2.remark some) ?_
    rw [remarkEntries_eq_map]
    exact List.mem_map_of_mem hentry
  have hchecks : checks disk root again =
      .ok (refreshedText preset modulePath overrides, entries, preset, found) := by
    refine checks_eq_ok_iff.mpr ⟨currentText_of_find? hwritten hfile, ?_, chosen_of_plain hpreset hentries _ hagain,
      hfound⟩
    rw [entriesOfText, refreshedText, hw]
    dsimp only
    rw [openDocument_of_plain hpreset hoverrides hplain]
  obtain ⟨content, hcontent⟩ := hbackup
  obtain ⟨backedUp, hbackedUp⟩ := Disk.exists_writeText hcontent (refreshedText preset modulePath overrides)
  -- the configuration is still a file, so it can be written
  obtain ⟨kept, hkept, hkind⟩ := (Disk.extends_writeText hbackedUp).find? hfile
  obtain ⟨content', rfl⟩ := hkind.file
  obtain ⟨after, hafter⟩ := Disk.exists_writeText hkept (refreshedText preset modulePath found)
  have hwritable : ∀ v ∈ found, v.isWritable = true := fun v hv =>
    Value.isWritable_of_isBasic (hlasting v hv).clear.basic
  obtain ⟨hdisk, hresult⟩ := refresh_of_checks hchecks hbackedUp
    (writtenPath_eq_ok_iff.mpr ⟨modulePathFor_of_plain hne hentries, hwritable⟩) hafter
  rw [hdisk, Disk.find?_writeText hafter, refreshedText_of_plain hpreset hoverrides hlasting hsame]
  exact ⟨hresult, rfl⟩

/-- A refresh leaves a backup. -/
theorem exists_backup {used : String} (h : (refresh disk root name).outcome.result = .ok used) :
    ∃ content, (refresh disk root name).disk.find? (backupOf root) = .ok (some (.file content)) := by
  have hrefreshed := refresh_refreshed disk root name
  rw [h] at hrefreshed
  generalize (refresh disk root name).disk = after at hrefreshed ⊢
  cases hrefreshed with
  | written _ hbackup _ hwrite =>
    obtain ⟨kept, hkept, hkind⟩ := (Disk.extends_writeText hwrite).find? (Disk.find?_writeText hbackup)
    obtain ⟨content, rfl⟩ := hkind.file
    exact ⟨content, hkept⟩

end Refresh

/-- **What is written is read back**: the text of a configuration, behind no header or one of a preset, is a document
with the path of the module, the section of the preset and the overrides. So where a refresh has written such a text
the next one writes it again. -/
theorem written_reads_back {disk : Disk} {root : Location} {preset : Preset} {modulePath : String}
    {overrides : Option (Value Nat)} (hpreset : preset ∈ all) (hmodule : ModulePath.detect disk root = .ok modulePath)
    (hoverrides : ∀ v ∈ overrides, IsLasting v) :
    (∀ header ∈ ["", createdHeader preset.name, refreshedHeader preset.name],
      ∃ w, Value.ofText? (header ++ preset.render modulePath (overrides.map fun v => v.remark some)) = .ok (some w) ∧
        w.plain = .map () (writtenEntries preset modulePath overrides)) ∧
    ∀ (project : Disk) (place : Location) (name : Option String) (used : String),
      (refresh project place name).outcome.result = .ok used →
      (refresh project place name).disk.find? (configurationOf place) =
        .ok (some (.file (refreshedText preset modulePath overrides).toUTF8)) →
      ∀ again ∈ [none, some preset.name],
        (refresh (refresh project place name).disk place again).outcome.result = .ok preset.name ∧
          (refresh (refresh project place name).disk place again).disk.find? (configurationOf place) =
            (refresh project place name).disk.find? (configurationOf place) := by
  have hpath := isLastingPath_of_detect hmodule
  refine ⟨fun header hheader => ?_, fun project place name used hused hfile again hagain => ?_⟩
  · have hremarks : IsRemarks header := by
      simp only [List.mem_cons, List.not_mem_nil, or_false] at hheader
      rcases hheader with rfl | rfl | rfl
      · exact isRemarks_empty
      · exact isRemarks_createdHeader hpreset
      · exact isRemarks_refreshedHeader hpreset
    obtain ⟨-, w, hw, hplain, -⟩ := ofText?_rendered hpreset hpath hoverrides hremarks
    exact ⟨w, hw, hplain⟩
  · rw [hfile]
    exact refresh_of_written hpreset hpath (detect_ne_empty hmodule) hoverrides hfile (exists_backup hused) hagain

/-- Overrides with a text on several lines. -/
def goalsOverrides : Value Nat :=
  .map 0 [(.text "error_prompt", .map 1 [(.text "architectural_goals", .scalar 2 (.text "a\nb\n"))])]

theorem isLasting_goalsOverrides : IsLasting goalsOverrides where
  fields := ⟨0, _, rfl, by simp⟩
  clear :=
    { basic := by simp [goalsOverrides, Value.IsBasic, IsBasicEntries, DistinctKeys, Scalar.IsBasic]
      legible := fun inValue => by cases inValue <;> decide +kernel }
  unshared := by rfl

/-- The directory of a project. -/
def namedRoot : Location := ⟨true, []⟩

/-- A project with a configuration and a backup. -/
def backedUpProject (content : ByteArray) : Disk :=
  { nodes := [(["go.mod"], .file "module m\n".toUTF8), ([Settings.fileName], .file content),
      ([backupName], .file content)]
    current := [] }

theorem find?_backedUpProject (content : ByteArray) :
    (backedUpProject content).find? (configurationOf namedRoot) = .ok (some (.file content)) ∧
      (backedUpProject content).find? (backupOf namedRoot) = .ok (some (.file content)) := by
  constructor <;> rfl

/-- A text on several lines in the overrides is read back, and a refresh of the configuration that has it changes
nothing. -/
theorem written_reads_back_goals :
    (∃ w, Value.ofText? (simple.render "m" (some (goalsOverrides.remark some))) = .ok (some w) ∧
      w.plain = .map () (writtenEntries simple "m" (some goalsOverrides))) ∧
    ∃ project : Disk, (refresh project namedRoot none).outcome.result = .ok "simple" ∧
      (refresh project namedRoot none).disk.find? (configurationOf namedRoot) =
        .ok (some (.file (refreshedText simple "m" (some goalsOverrides)).toUTF8)) ∧
      (refresh (refresh project namedRoot none).disk namedRoot none).disk.find? (configurationOf namedRoot) =
        (refresh project namedRoot none).disk.find? (configurationOf namedRoot) := by
  have hpreset : simple ∈ all := by simp [all]
  have hmodule : ModulePath.detect (backedUpProject .empty) namedRoot = .ok "m" := by decide +kernel
  have hlasting : ∀ v ∈ some goalsOverrides, IsLasting v := by
    rintro v hv
    obtain rfl := Option.some.inj hv
    exact isLasting_goalsOverrides
  obtain ⟨hread, hagain⟩ := written_reads_back hpreset hmodule hlasting
  have hplace := find?_backedUpProject (refreshedText simple "m" (some goalsOverrides)).toUTF8
  obtain ⟨hresult, hfile⟩ := refresh_of_written hpreset (isLastingPath_of_detect hmodule) (by decide) hlasting hplace.1
    ⟨_, hplace.2⟩ List.mem_cons_self
  refine ⟨?_, backedUpProject (refreshedText simple "m" (some goalsOverrides)).toUTF8, hresult, hfile, ?_⟩
  · simpa using hread "" List.mem_cons_self
  · exact (hagain _ namedRoot none simple.name hresult hfile none List.mem_cons_self).2

end LayerLint.Preset
