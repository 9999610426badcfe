import LayerLint.Proofs.Lint.Steps
import LayerLint.Proofs.Rule.Slash
import LayerLint.Proofs.Scan.Listing

/-!
# A slash behind a directory in the configuration

A configuration mentions directories in six places (`Mention`). Scanning and measuring do not see a slash at the end of
one (`Mention.AddsSlash.speltAlike`, `Mention.AddsSlash.join_scanPaths`), but the summaries and the rules compare the
directory as a text with other paths. So a run with the slash ends well where the one without it does, and it has the
same verdicts and the same counts of packages just where nothing depended on the directory (`slash_iff`).
-/

namespace LayerLint

open Result

/-- The verdicts of a run, in the order of its violations. -/
def Outcome.verdicts (outcome : Outcome) : List (ViolationKind × String) := outcome.violations.map Violation.verdict

/-- The numbers of packages in the summaries of a run. -/
def Outcome.packageCounts (outcome : Outcome) : List Nat := outcome.summaries.map (·.packages)

namespace Lint

/-- A place where a configuration mentions a directory. -/
inductive Mention where
  | scanPath (before : List String) (path : String) (after : List String)
  | ignorePath (before : List String) (path : String) (after : List String)
  /-- The directory has an entry in the directory policy. -/
  | importKey (path : String)
  /-- The entry for `key` allows imports of the directory. -/
  | allowedPath (key : String) (before : List String) (path : String) (after : List String)
  | requiredKey (path : String)
  | thresholdKey (path : String)

namespace Mention

/-- The directory that is mentioned. -/
def path : Mention → String
  | scanPath _ path _ | ignorePath _ path _ | importKey path | allowedPath _ _ path _ | requiredKey path
  | thresholdKey path => path

/-- The settings have a slash behind the directory that others mention, and are the same else. -/
def AddsSlash (settings settings' : Settings) : Mention → Prop
  | scanPath before path after => settings.scanPaths = before ++ path :: after ∧
      settings' = { settings with scanPaths := before ++ (path ++ "/") :: after }
  | ignorePath before path after => settings.ignorePaths = before ++ path :: after ∧
      settings' = { settings with ignorePaths := before ++ (path ++ "/") :: after }
  | importKey path => ∃ renamed, settings.directoriesImport.Renames renamed path (path ++ "/") ∧
      settings' = { settings with directoriesImport := renamed }
  | allowedPath key before path after => settings.directoriesImport.find? key = some (before ++ path :: after) ∧
      settings' = { settings with
        directoriesImport := settings.directoriesImport.insert key (before ++ (path ++ "/") :: after) }
  | requiredKey path => ∃ renamed, settings.requiredDirectories.Renames renamed path (path ++ "/") ∧
      settings' = { settings with requiredDirectories := renamed }
  | thresholdKey path => ∃ renamed, settings.packageThresholds.Renames renamed path (path ++ "/") ∧
      settings' = { settings with packageThresholds := renamed }

/-- Nothing that a run finds depends on the directory. -/
def IsHarmless (project : Project) (policy : Policy) (graph : Graph) (rows : List PackageCoverage) : Mention → Prop
  -- no package is counted for it
  | scanPath _ path _ => Coverage.membersOf rows policy.modulePath path = []
  | ignorePath .. => True
  -- the entry could be left out
  | importKey path =>
    (validate graph (policy.notConfining path) rows (some project)).map Violation.verdict =
      (validate graph policy rows (some project)).map Violation.verdict
  -- what it allows is allowed by another path or lies below it as it is written with the slash
  | allowedPath key before path after => ∀ node ∈ graph.nodes, ∀ target ∈ node.localPaths,
      Rule.IsSubjectTo policy key node target → Rule.Allows (before ++ path :: after) target →
        Rule.Allows (before ++ (path ++ "/") :: after) target
  -- it is not used
  | requiredKey path => Rule.IsMissing project.disk (project.root.join path) ∨ Rule.IsUnused graph path
  -- the threshold could be left out
  | thresholdKey path =>
    (validate graph (policy.notThresholding path) rows (some project)).map Violation.verdict =
      (validate graph policy rows (some project)).map Violation.verdict

variable {settings settings' : Settings} {mention : Mention} {rows : List PackageCoverage} {graph : Graph}
  {project : Project}

/-! ## What does not see the slash -/

theorem AddsSlash.modulePath_and_coverage (h : mention.AddsSlash settings settings') :
    settings'.modulePath = settings.modulePath ∧
      settings'.coverageEnabled = settings.coverageEnabled := by
  cases mention with
  | scanPath | ignorePath | allowedPath =>
    obtain ⟨-, rfl⟩ := h
    exact ⟨rfl, rfl⟩
  | importKey | requiredKey | thresholdKey =>
    obtain ⟨renamed, -, rfl⟩ := h
    exact ⟨rfl, rfl⟩

/-- **The scan is the same.** -/
theorem AddsSlash.speltAlike (h : mention.AddsSlash settings settings') (options : Options) :
    Scan.SpeltAlike (requestOf settings' options) (requestOf settings options) := by
  cases mention with
  | scanPath before path after =>
    obtain ⟨hpaths, rfl⟩ := h
    exact ⟨by simp [requestOf, hpaths], rfl, rfl, rfl⟩
  | ignorePath before path after =>
    obtain ⟨hpaths, rfl⟩ := h
    exact ⟨rfl, by simp [requestOf, hpaths], rfl, rfl⟩
  | allowedPath =>
    obtain ⟨-, rfl⟩ := h
    exact ⟨rfl, rfl, rfl, rfl⟩
  | importKey | requiredKey | thresholdKey =>
    obtain ⟨renamed, -, rfl⟩ := h
    exact ⟨rfl, rfl, rfl, rfl⟩

/-- **The packages are looked up in the same places.** -/
theorem AddsSlash.join_scanPaths (h : mention.AddsSlash settings settings') (hpath : mention.path ≠ "")
    (root : Location) : settings'.scanPaths.map root.join = settings.scanPaths.map root.join := by
  cases mention with
  | scanPath before path after =>
    obtain ⟨hpaths, rfl⟩ := h
    have hjoin : root.join (path ++ "/") = root.join path := Location.join_slash root hpath
    simp [hpaths, hjoin]
  | ignorePath | allowedPath =>
    obtain ⟨-, rfl⟩ := h
    rfl
  | importKey | requiredKey | thresholdKey =>
    obtain ⟨renamed, -, rfl⟩ := h
    rfl

/-! ## What sees it -/

variable {modulePath path : String}

/-- No package is counted for a scanned path with the slash. -/
theorem summaryOf?_slash
    (hrows : ∀ row ∈ rows, "" ∉ Path.segments (Rule.pathOfPackage row.packagePath modulePath)) :
    Coverage.summaryOf? rows modulePath (path ++ "/") = none := by
  have hmembers : Coverage.membersOf rows modulePath (path ++ "/") = [] := by
    refine List.filter_eq_nil_iff.mpr fun row hrow hunder => ?_
    exact Path.not_prefix_of_slash (hrows row hrow) (Path.isUnder_iff.mp hunder)
  rw [Coverage.summaryOf?, hmembers]
  rfl

/-- The packages of a summary are those that are counted for the scanned path. -/
theorem map_packages_summaryOf? (rows : List PackageCoverage) (modulePath path : String) :
    ((Coverage.summaryOf? rows modulePath path).toList.map (·.packages)) =
      if Coverage.membersOf rows modulePath path = [] then []
      else [(Coverage.membersOf rows modulePath path).length] := by
  by_cases hmembers : Coverage.membersOf rows modulePath path = []
  · simp [Coverage.summaryOf?, hmembers]
  · simp [Coverage.summaryOf?, hmembers]

/-- **The counts of packages are the same just where none is counted** for the scanned path. -/
theorem packageCounts_slash {before after : List String}
    (hrows : ∀ row ∈ rows, "" ∉ Path.segments (Rule.pathOfPackage row.packagePath modulePath)) :
    (Coverage.summarize rows modulePath (before ++ (path ++ "/") :: after)).map (·.packages) =
        (Coverage.summarize rows modulePath (before ++ path :: after)).map (·.packages) ↔
      Coverage.membersOf rows modulePath path = [] := by
  have hsplit : ∀ scanPath, (Coverage.summarize rows modulePath (before ++ scanPath :: after)).map (·.packages) =
      (Coverage.summarize rows modulePath before).map (·.packages) ++
        ((Coverage.summaryOf? rows modulePath scanPath).toList.map (·.packages) ++
          (Coverage.summarize rows modulePath after).map (·.packages)) := by
    intro scanPath
    simp only [Coverage.summarize, List.filterMap_eq_flatMap_toList, List.flatMap_append, List.flatMap_cons,
      List.map_append]
  have hslash : (Coverage.summaryOf? rows modulePath (path ++ "/")).toList.map (·.packages) = [] := by
    rw [summaryOf?_slash hrows]
    rfl
  rw [hsplit, hsplit, List.append_right_inj, hslash, List.append_left_inj, map_packages_summaryOf?]
  split <;> simp_all

/-- **The verdicts and the counts are the same just where the mention is harmless.** -/
theorem AddsSlash.unchanged_iff (h : mention.AddsSlash settings settings') (hpath : mention.path ≠ "")
    (hdisk : project.disk.IsNamed) (hbelow : Rule.IsUnused graph (mention.path ++ "/"))
    (hrows : ∀ row ∈ rows, "" ∉ Path.segments (Rule.pathOfPackage row.packagePath settings.modulePath)) :
    ((validate graph settings'.policy rows (some project)).map Violation.verdict =
          (validate graph settings.policy rows (some project)).map Violation.verdict ∧
        (Coverage.summarize rows settings.modulePath settings'.scanPaths).map (·.packages) =
          (Coverage.summarize rows settings.modulePath settings.scanPaths).map (·.packages)) ↔
      mention.IsHarmless project settings.policy graph rows := by
  cases mention with
  | scanPath before path after =>
    obtain ⟨hpaths, rfl⟩ := h
    refine (and_iff_right rfl).trans ?_
    rw [hpaths]
    exact packageCounts_slash hrows
  | ignorePath before path after =>
    obtain ⟨-, rfl⟩ := h
    exact iff_of_true ⟨rfl, rfl⟩ trivial
  | importKey path =>
    obtain ⟨renamed, hrenames, rfl⟩ := h
    have hpolicy : ({ settings with directoriesImport := renamed } : Settings).policy =
        { settings.policy with directoriesImport := renamed } := rfl
    refine (and_iff_left rfl).trans ?_
    rw [hpolicy, Rule.validate_renamed_imports (hrenames : settings.policy.directoriesImport.Renames ..) hbelow]
    rfl
  | allowedPath key before path after =>
    obtain ⟨hfind, rfl⟩ := h
    have hpolicy : ({ settings with
        directoriesImport :=
          settings.directoriesImport.insert key (before ++ (path ++ "/") :: after) } : Settings).policy =
        settings.policy.allowing key (before ++ (path ++ "/") :: after) := rfl
    refine (and_iff_left rfl).trans ?_
    rw [hpolicy]
    exact Rule.verdicts_allowed_slash (hfind : settings.policy.directoriesImport.find? key = _)
  | requiredKey path =>
    obtain ⟨renamed, hrenames, rfl⟩ := h
    have hpolicy : ({ settings with requiredDirectories := renamed } : Settings).policy =
        { settings.policy with requiredDirectories := renamed } := rfl
    refine (and_iff_left rfl).trans ?_
    rw [hpolicy]
    exact Rule.verdicts_validate_renamed_required hdisk
      (hrenames : settings.policy.requiredDirectories.Renames ..) hpath hbelow
  | thresholdKey path =>
    obtain ⟨renamed, hrenames, rfl⟩ := h
    have hpolicy : ({ settings with packageThresholds := renamed } : Settings).policy =
        { settings.policy with packageThresholds := renamed } := rfl
    have hmodule : settings.modulePath = settings.policy.modulePath := rfl
    rw [hmodule] at hrows
    refine (and_iff_left rfl).trans ?_
    rw [hpolicy, Rule.validate_renamed_thresholds (hrenames : settings.policy.packageThresholds.Renames ..) hrows]
    rfl

end Mention

/-! ## Two runs -/

variable {disk : Disk} {root : Location} {request : Scan.Request} {files : List Source.Parsed}

/-- Without backslashes in their paths, no files lie below a directory as it is written with the slash. -/
theorem isUnused_slash (hdisk : disk.IsNamed) (h : (scan disk root request).result = .ok files) (settings : Settings)
    (hback : ∀ node ∈ (graphOf settings files).nodes, '\\' ∉ node.relPath.toList) (path : String) :
    Rule.IsUnused (graphOf settings files) (path ++ "/") := by
  intro node hnode
  obtain ⟨source, hsource, rfl⟩ := List.mem_map.mp hnode
  obtain ⟨file, hfile, rfl⟩ := List.mem_map.mp hsource
  exact Path.not_prefix_of_slash (Scan.not_mem_segments_directoryOf hdisk h hfile (hback _ hnode))

/-- **A slash behind a mentioned directory changes nothing just where nothing depends on the directory.** With the slash
a run ends well as without it, with the same graph. No backslash may stand in the paths of the scanned files, which
would be taken for a slash. -/
theorem slash_iff (around : Surroundings) (options : Options) {config config' : Option Location}
    {settings settings' : Settings} {mention : Mention} {graph : Graph} {outcome : Outcome}
    (hdisk : around.project.disk.IsNamed)
    (hload : (Settings.load around.project.disk around.project.root config).result = .ok settings)
    (hload' : (Settings.load around.project.disk around.project.root config').result = .ok settings')
    (hslash : mention.AddsSlash settings settings') (hpath : mention.path ≠ "")
    (hrun : (lint around { options with config }).result = .ok (graph, outcome))
    (hback : ∀ node ∈ graph.nodes, '\\' ∉ node.relPath.toList) :
    ∃ outcome', (lint around { options with config := config' }).result = .ok (graph, outcome') ∧
      ((outcome'.verdicts = outcome.verdicts ∧ outcome'.packageCounts = outcome.packageCounts) ↔
        mention.IsHarmless around.project settings.policy graph outcome.coverage) := by
  obtain ⟨found, files, measured, hfound, hscan, hmeasured, rfl, rfl⟩ := lint_eq_ok_iff.mp hrun
  obtain rfl := Except.ok.inj (hload.symm.trans hfound)
  have hscan' : (scan around.project.disk around.project.root
      (requestOf settings' { options with config := config' })).result = .ok files := by
    rw [Scan.scan_eq (hslash.speltAlike { options with config := config' })]
    exact hscan
  obtain ⟨hmodule, henabled⟩ := hslash.modulePath_and_coverage
  have hmeasured' := measure_of_alike henabled hmodule (hslash.join_scanPaths hpath around.project.root) hmeasured
  have hgraph : graphOf settings' files = graphOf settings files := by
    rw [graphOf, graphOf, hmodule]
  have hrows := not_mem_segments_of_measure hdisk (Settings.modulePath_ne_empty hload) hmeasured
  refine ⟨outcomeOf around settings' files _,
    lint_eq_ok_iff.mpr ⟨settings', files, _, hload', hscan', hmeasured', hgraph.symm, rfl⟩, ?_⟩
  simp only [Outcome.verdicts, Outcome.packageCounts, outcomeOf, hgraph, summaries_of_measure hmeasured]
  exact hslash.unchanged_iff hpath hdisk (isUnused_slash hdisk hscan settings hback mention.path) hrows

/-! ## A project with two configurations -/

deriving instance DecidableEq for Policy

deriving instance DecidableEq for Settings

/-- A project in which a package imports one below it, with a configuration that allows this and another that has a
slash behind the allowed path. -/
def slashedProject : Surroundings :=
  { project :=
      { disk :=
          { nodes :=
              [(["go.mod"], .file "module m\n".toUTF8),
                (["plain.yml"], .file "rules: \x7bdirectories_import: \x7bpkg: [pkg]\x7d\x7d\n".toUTF8),
                (["slashed.yml"], .file "rules: \x7bdirectories_import: \x7bpkg: [pkg/]\x7d\x7d\n".toUTF8),
                (["pkg"], .directory), (["pkg", "a.go"], .file "package pkg\n\nimport \"m/pkg/b\"\n".toUTF8)]
            current := [] }
        root := ⟨true, []⟩ }
    runner := none
    elapsed := Binary64.zero false }

/-- The settings in a configuration of the project. -/
def slashedSettings (allowed : List String) : Settings :=
  { modulePath := "m", directoriesImport := .ofList [("pkg", allowed)] }

/-- The allowed path. -/
def slashedMention : Mention := .allowedPath "pkg" [] "pkg" []

theorem load_plain : (Settings.load slashedProject.project.disk slashedProject.project.root
    (some ⟨true, ["plain.yml"]⟩)).result = .ok (slashedSettings ["pkg"]) :=
  eq_ok_of_toOption (by decide +kernel)

theorem load_slashed : (Settings.load slashedProject.project.disk slashedProject.project.root
    (some ⟨true, ["slashed.yml"]⟩)).result = .ok (slashedSettings ["pkg/"]) :=
  eq_ok_of_toOption (by decide +kernel)

theorem addsSlash_slashed : slashedMention.AddsSlash (slashedSettings ["pkg"]) (slashedSettings ["pkg/"]) :=
  ⟨by decide +kernel, by decide +kernel⟩

/-- The file of the project and its import. -/
def slashedNode : FileNode :=
  { relPath := "pkg/a.go", package := "pkg", baseName := "a", isTest := false
    dependencies := [⟨"m/pkg/b", some "pkg/b", []⟩] }

theorem run_plain : ∃ outcome, (lint slashedProject { config := some ⟨true, ["plain.yml"]⟩ }).result =
    .ok (⟨[slashedNode], "m"⟩, outcome) ∧ outcome.verdicts = [] := by
  obtain ⟨⟨graph, outcome⟩, hrun, hfound⟩ := exists_of_any
    (lint slashedProject { config := some ⟨true, ["plain.yml"]⟩ }).result
    (fun result => decide (result.1 = ⟨[slashedNode], "m"⟩ ∧ result.2.verdicts = [])) (by decide +kernel)
  obtain ⟨rfl, hverdicts⟩ := of_decide_eq_true hfound
  exact ⟨outcome, hrun, hverdicts⟩

theorem not_harmless_slashed (project : Project) (rows : List PackageCoverage) :
    ¬ slashedMention.IsHarmless project (slashedSettings ["pkg"]).policy ⟨[slashedNode], "m"⟩ rows := by
  intro h
  have hsubject : Rule.IsSubjectTo (slashedSettings ["pkg"]).policy "pkg" slashedNode "pkg/b" :=
    ⟨by decide +kernel, ["pkg"], by decide +kernel⟩
  exact absurd (h slashedNode (by decide) "pkg/b" (by decide) hsubject (by decide +kernel)) (by decide +kernel)

theorem slash_iff_slashed : ∃ outcome outcome',
    (lint slashedProject { config := some ⟨true, ["plain.yml"]⟩ }).result = .ok (⟨[slashedNode], "m"⟩, outcome) ∧
      (lint slashedProject { config := some ⟨true, ["slashed.yml"]⟩ }).result = .ok (⟨[slashedNode], "m"⟩, outcome') ∧
      ¬ (outcome'.verdicts = outcome.verdicts ∧ outcome'.packageCounts = outcome.packageCounts) := by
  obtain ⟨outcome, hrun, -⟩ := run_plain
  have hdisk : slashedProject.project.disk.IsNamed := by decide +kernel
  have hback : ∀ node ∈ (⟨[slashedNode], "m"⟩ : Graph).nodes, '\\' ∉ node.relPath.toList := by decide
  obtain ⟨outcome', hrun', hiff⟩ := slash_iff slashedProject {} hdisk load_plain load_slashed addsSlash_slashed
    (by decide) hrun hback
  exact ⟨outcome, outcome', hrun, hrun', fun hsame => not_harmless_slashed _ _ (hiff.mp hsame)⟩

/-- **A slash behind an allowed path forbids an import.** -/
theorem slash_changes_verdicts : ¬ ∀ (around : Surroundings) (config config' : Option Location)
    (settings settings' : Settings) (mention : Mention) (graph graph' : Graph) (outcome outcome' : Outcome),
      around.project.disk.IsNamed →
      (Settings.load around.project.disk around.project.root config).result = .ok settings →
      (Settings.load around.project.disk around.project.root config').result = .ok settings' →
      mention.AddsSlash settings settings' → mention.path ≠ "" →
      (lint around { config }).result = .ok (graph, outcome) →
      (lint around { config := config' }).result = .ok (graph', outcome') →
      (∀ node ∈ graph.nodes, '\\' ∉ node.relPath.toList) →
        outcome'.verdicts = outcome.verdicts ∧ outcome'.packageCounts = outcome.packageCounts := by
  intro h
  obtain ⟨outcome, hrun, hverdicts⟩ := run_plain
  obtain ⟨⟨graph', outcome'⟩, hrun', hforbidden⟩ := exists_of_any
    (lint slashedProject { config := some ⟨true, ["slashed.yml"]⟩ }).result
    (fun result => decide (result.2.verdicts = [(.forbiddenImport, "pkg/a.go")])) (by decide +kernel)
  have hsame := (h slashedProject _ _ _ _ slashedMention _ _ _ _ (by decide +kernel) load_plain load_slashed
    addsSlash_slashed (by decide) hrun hrun' (by decide)).1
  rw [of_decide_eq_true hforbidden, hverdicts] at hsame
  cases hsame

end Lint

end LayerLint
