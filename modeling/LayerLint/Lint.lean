import LayerLint.Coverage.Measure
import LayerLint.Rule.Progress
import LayerLint.Scan
import LayerLint.Settings.File
import LayerLint.Validation

/-!
# A run of the linter

A run loads the settings of a project, scans its source files, measures coverage where the settings ask for it,
and checks all rules.
-/

namespace LayerLint

/-- Why a run ends without an outcome. -/
inductive LintError where
  | settings (cause : SettingsError)
  | scan (cause : ScanError)
  | coverage (cause : Coverage.MeasureError)

namespace LintError

/-- The wording of the error. -/
def message : LintError → String
  | .settings cause => if cause.isReported then "Invalid configuration: " ++ cause.message else cause.message
  | .scan cause => if cause.isReported then "Scan failed: " ++ cause.message else cause.message
  | .coverage cause => cause.message

/-- The error is reported to the user and does not stop the program. -/
def isReported : LintError → Bool
  | .settings cause => cause.isReported
  | .scan cause => cause.isReported
  | .coverage _ => false

end LintError

namespace Lint

/-- What a run is asked for. -/
structure Options where
  /-- The graph keeps the symbols that each import is used for. -/
  detailed : Bool := false
  config : Option Location := none
  measuresCoverage : Bool := true
deriving DecidableEq, Repr

/-- What a run finds in its surroundings: the project, the program that runs tests, and how long it took in
seconds. -/
structure Surroundings where
  project : Project
  runner : Option Coverage.TestRunner
  elapsed : Binary64

/-- Coverage with its summaries. -/
structure Measured where
  rows : List PackageCoverage
  summaries : List Coverage.DirectorySummary
  overall : Option Binary64
deriving DecidableEq, Repr

/-- Nothing was measured. -/
def Measured.nothing : Measured := ⟨[], [], none⟩

/-- Measures coverage, if it is asked for and possible. -/
def measure (around : Surroundings) (settings : Settings) (options : Options) : Logged LintError Measured :=
  if settings.coverageEnabled && options.measuresCoverage then
    let modulePath := settings.modulePath
    let run := Coverage.measure around.project.disk around.project.root modulePath settings.scanPaths around.runner
    match run.result with
    | .ok rows => do
      .notes run.log
      return ⟨rows, Coverage.summarize rows modulePath settings.scanPaths, some (Coverage.overall rows)⟩
    | .error .noRunner => do
      .notes run.log
      .note .warning .linter s!"Failed to run coverage analysis: {Coverage.noRunner}"
      return .nothing
    | .error cause => do
      .notes run.log
      .ofExcept (.error (.coverage cause))
  else return .nothing

/-- The messages of the rules. -/
def rulesLog (project : Project) (graph : Graph) (policy : Policy) (violations : List Violation) : List LogRecord :=
  Rule.structureLog project.disk project.root policy ++
    (if policy.detectUnused then Rule.reachabilityLog graph else []) ++
    [⟨.debug, .validation, s!"Validated {graph.nodes.length} files: {violations.length} violations"⟩]

/-- The graph of scanned files. -/
def graphOf (settings : Settings) (files : List Source.Parsed) : Graph :=
  Graph.build (files.map (·.file)) settings.modulePath (files.map fun f => (f.file.relPath, f.usages))

end Lint

/-- Runs the linter: the graph of the project and what was found. -/
def lint (around : Lint.Surroundings) (options : Lint.Options) : Logged LintError (Graph × Outcome) := do
  let project := around.project
  let settings ← (Settings.load project.disk project.root options.config).mapError .settings
  let files ← (scan project.disk project.root
    { scanPaths := settings.scanPaths
      ignorePaths := settings.ignorePaths
      includesTests := settings.includesTests
      withUsages := options.detailed }).mapError .scan
  let graph := Lint.graphOf settings files
  .note .debug .graph
    s!"Built graph: {graph.nodes.length} nodes, {graph.packageDirs.length} package directories"
  let measured ← Lint.measure around settings options
  let violations := validate graph settings.policy measured.rows (some project)
  .notes (Lint.rulesLog project graph settings.policy violations)
  let elapsed := around.elapsed.mul 1000
  let time := elapsed.fixed 0
  .note .debug .linter s!"Lint finished: {files.length} files, {violations.length} violations, {time} ms"
  return (graph,
    { violations
      filesScanned := files.length
      rulesEvaluated := countRules settings.policy true (!measured.rows.isEmpty)
      elapsed
      sharedImportsMode := settings.sharedImportsMode
      errorPrompt := settings.errorPrompt
      preset := settings.preset
      coverage := measured.rows
      summaries := measured.summaries
      overallCoverage := measured.overall })

end LayerLint
