import LayerLint.Proofs.Coverage.Summary
import LayerLint.Proofs.Lint.Stopping
import LayerLint.Proofs.Preset.Kept
import LayerLint.Proofs.Scan.Spelling

/-!
# The steps of a run

A run that ends well has loaded settings, scanned files and measured coverage, and its outcome is made of these
(`lint_eq_ok_iff`). The summaries of a measurement are made of its rows (`summaries_of_measure`), whose packages have
paths without empty segments (`not_mem_segments_of_measure`).
-/

namespace LayerLint

open Result

/-- The settings that are loaded have the path of a module. -/
theorem Settings.modulePath_ne_empty {disk : Disk} {root : Location} {given : Option Location} {settings : Settings}
    (h : (load disk root given).result = .ok settings) : settings.modulePath ≠ "" := by
  have hdetect : ∀ {path}, (ModulePath.detect disk root).mapError SettingsError.modulePath = .ok path → path ≠ "" :=
    fun hpath => Preset.detect_ne_empty (mapError_eq_ok.mp hpath)
  unfold load at h
  dsimp only at h
  split at h
  · cases h
  · simp only [Logged.result_bind, Logged.result_ofExcept, Logged.result_note, Logged.result_pure, bind_eq_ok,
      ok_bind] at h
    obtain ⟨found, hfile, heq⟩ := h
    obtain rfl : found = settings := by simpa using heq
    unfold ofFile at hfile
    split at hfile
    · cases hfile
    · cases hfile
    · obtain ⟨entries, -, hentries⟩ := bind_eq_ok.mp hfile
      have hmodule := (ofEntries_eq_ok hentries).1
      rw [modulePathOf, bind_eq_ok] at hmodule
      obtain ⟨given, -, hpath⟩ := hmodule
      split at hpath
      · exact hdetect hpath
      · rename_i hgiven
        rw [← Except.ok.inj hpath]
        simpa using hgiven
  · split at h
    · cases h
    · simp only [Logged.result_bind, Logged.result_note, ok_bind, Logged.result_ofExcept, map_eq_ok] at h
      obtain ⟨path, hpath, rfl⟩ := h
      exact hdetect hpath

namespace Lint

variable {around : Surroundings} {options : Options} {settings : Settings} {graph : Graph} {outcome : Outcome}
  {measured : Measured}

/-! ## The outcome of a run -/

/-- What a run found, from its steps. -/
def outcomeOf (around : Surroundings) (settings : Settings) (files : List Source.Parsed) (measured : Measured) :
    Outcome :=
  { violations := validate (graphOf settings files) settings.policy measured.rows (some around.project)
    filesScanned := files.length
    rulesEvaluated := countRules settings.policy true (!measured.rows.isEmpty)
    elapsed := around.elapsed.mul 1000
    sharedImportsMode := settings.sharedImportsMode
    errorPrompt := settings.errorPrompt
    preset := settings.preset
    coverage := measured.rows
    summaries := measured.summaries
    overallCoverage := measured.overall }

/-- **A run ends well** where each of its steps does. -/
theorem lint_eq_ok_iff : (lint around options).result = .ok (graph, outcome) ↔ ∃ settings files measured,
    (Settings.load around.project.disk around.project.root options.config).result = .ok settings ∧
      (scan around.project.disk around.project.root (requestOf settings options)).result = .ok files ∧
      (measure around settings options).result = .ok measured ∧
      graph = graphOf settings files ∧ outcome = outcomeOf around settings files measured := by
  have hresult : ∀ {ε ε' α : Type} (f : ε → ε') (x : Logged ε α), (x.mapError f).result = x.result.mapError f :=
    fun _ _ => rfl
  rw [lint]
  simp only [Logged.result_bind, Logged.result_note, Logged.result_notes, Logged.result_pure, ok_bind, bind_eq_ok,
    hresult, mapError_eq_ok, Except.ok.injEq, Prod.mk.injEq, @eq_comm _ _ graph, @eq_comm _ _ outcome]
  constructor
  · rintro ⟨settings, hload, files, hscan, measured, hmeasured, hgraph, houtcome⟩
    exact ⟨settings, files, measured, hload, hscan, hmeasured, hgraph, houtcome⟩
  · rintro ⟨settings, files, measured, hload, hscan, hmeasured, hgraph, houtcome⟩
    exact ⟨settings, hload, files, hscan, measured, hmeasured, hgraph, houtcome⟩

/-! ## What is measured -/

/-- There is no summary of nothing. -/
theorem summarize_nil (modulePath : String) (scanPaths : List String) :
    Coverage.summarize [] modulePath scanPaths = [] := by
  simp [Coverage.summarize, Coverage.summaryOf?, Coverage.membersOf]

/-- The measurement of a run has rows and summaries of them, or nothing. -/
theorem measure_eq_ok_cases (h : (measure around settings options).result = .ok measured) :
    measured = .nothing ∨
      (Coverage.measure around.project.disk around.project.root settings.modulePath settings.scanPaths
          around.runner).result = .ok measured.rows ∧
        measured.summaries = Coverage.summarize measured.rows settings.modulePath settings.scanPaths := by
  unfold measure at h
  split at h
  · dsimp only at h
    split at h
    · rename_i rows hrows
      simp only [Logged.result_bind, Logged.result_notes, Logged.result_pure, ok_bind, Except.ok.injEq] at h
      subst h
      exact .inr ⟨hrows, rfl⟩
    · simp only [Logged.result_bind, Logged.result_note, Logged.result_notes, Logged.result_pure, ok_bind,
        Except.ok.injEq] at h
      exact .inl h.symm
    · simp [Logged.result_bind] at h
  · simp only [Logged.result_pure, Except.ok.injEq] at h
    exact .inl h.symm

theorem summaries_of_measure (h : (measure around settings options).result = .ok measured) :
    measured.summaries = Coverage.summarize measured.rows settings.modulePath settings.scanPaths := by
  rcases measure_eq_ok_cases h with rfl | ⟨-, hsummaries⟩
  · exact (summarize_nil _ _).symm
  · exact hsummaries

/-- Settings that lead to the same packages have the same rows. -/
theorem measure_of_alike {settings' : Settings}
    (henabled : settings'.coverageEnabled = settings.coverageEnabled)
    (hmodule : settings'.modulePath = settings.modulePath)
    (hjoin : settings'.scanPaths.map around.project.root.join = settings.scanPaths.map around.project.root.join)
    (h : (measure around settings options).result = .ok measured) :
    (measure around settings' options).result =
      .ok { measured with
        summaries := Coverage.summarize measured.rows settings.modulePath settings'.scanPaths } := by
  have hsame : Coverage.measure around.project.disk around.project.root settings.modulePath
      settings'.scanPaths around.runner = Coverage.measure around.project.disk around.project.root
        settings.modulePath settings.scanPaths around.runner := Coverage.measure_eq around.runner hjoin
  have hnothing : ({ Measured.nothing with
      summaries := Coverage.summarize [] settings.modulePath settings'.scanPaths } : Measured) = .nothing := by
    rw [summarize_nil]
    rfl
  unfold measure at h ⊢
  dsimp only at h ⊢
  rw [henabled, hmodule, hsame]
  split at h
  · rename_i hasked
    rw [if_pos hasked]
    split at h
    · simp only [Logged.result_bind, Logged.result_notes, Logged.result_pure, ok_bind, Except.ok.injEq] at h ⊢
      rw [← h]
    · simp only [Logged.result_bind, Logged.result_note, Logged.result_notes, Logged.result_pure, ok_bind,
        Except.ok.injEq] at h ⊢
      rw [← h]
      exact hnothing.symm
    · simp [Logged.result_bind] at h
  · rename_i hasked
    rw [if_neg hasked]
    simp only [Logged.result_pure, Except.ok.injEq] at h ⊢
    rw [← h]
    exact hnothing.symm

/-- No package that is measured has an empty segment in its path. -/
theorem not_mem_segments_of_measure (hdisk : around.project.disk.IsNamed) (hmodule : settings.modulePath ≠ "")
    (h : (measure around settings options).result = .ok measured) :
    ∀ row ∈ measured.rows, "" ∉ Path.segments (Rule.pathOfPackage row.packagePath settings.modulePath) := by
  intro row hrow
  rcases measure_eq_ok_cases h with rfl | ⟨hmeasured, -⟩
  · cases hrow
  · cases hrunner : around.runner with
    | none =>
      rw [hrunner] at hmeasured
      cases hmeasured
    | some run =>
      rw [hrunner] at hmeasured
      obtain ⟨packages, hpackages, -, hrows⟩ := Coverage.measure_eq_ok_iff.mp hmeasured
      rw [hrows] at hrow
      obtain ⟨package, hpackage, rfl⟩ := List.mem_map.mp hrow
      obtain ⟨target, htarget, rfl⟩ := (Coverage.mem_findPackages_iff_packageAt hdisk hpackages).mp hpackage
      have hnamed := htarget.isNamedFrom hdisk
      rw [Coverage.printedRow, Coverage.packageAt, Coverage.pathOfPackage_importPath hmodule,
        Location.segments_wayTo hnamed]
      split
      · decide
      · intro hempty
        rcases hnamed.mem_stepsTo hempty with hup | hname
        · exact absurd hup (by decide)
        · exact hname.ne_empty rfl

end Lint

end LayerLint
