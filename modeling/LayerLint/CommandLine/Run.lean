import LayerLint.CommandLine.Invocation
import LayerLint.Lint
import LayerLint.Preset.File
import LayerLint.Report.Json
import LayerLint.Report.Markdown
import LayerLint.Report.Porcelain
import LayerLint.Report.Rich
import LayerLint.Report.Tables

/-!
# Running a command

A command leaves an exit code, what it prints, and a disk that `init` and `refresh` change. The code is 0 for a clean
project, 1 for violations that fail the run, and 2 for an error that is reported to the user. The log comes before
all other messages.
-/

namespace LayerLint.CommandLine

/-- What a command finds in its surroundings: the disk, the program that runs tests, and how long a run takes in
seconds. -/
structure Surroundings where
  disk : Disk
  runner : Option Coverage.TestRunner
  elapsed : Binary64

/-- Why a command stops without a report to the user. -/
inductive Failure where
  | lint (cause : LintError)
  | preset (cause : PresetError)

/-- The wording of the failure. -/
def Failure.message : Failure → String
  | .lint cause => cause.message
  | .preset cause => cause.message

/-- What a command leaves behind. -/
structure Outcome where
  disk : Disk
  exitCode : Nat
  output : String := ""
  errors : String := ""
  failure : Option Failure := none

/-- The name of the program and its version. -/
def versionText : String := "archlint, version 0.3.0"

/-- The lines of a text that is printed. -/
def printed (lines : List String) : String := String.join (lines.map (· ++ "\n"))

/-- The least level of the messages that are shown. -/
def Globals.level (globals : Globals) : LogLevel :=
  if globals.verbose then .debug else if globals.quiet then .error else .warning

/-- The messages that are shown. -/
def Globals.logText (globals : Globals) (log : List LogRecord) : String :=
  printed ((log.filter (·.isAtLeast globals.level)).map (·.line))

/-- A command that ends with an error. -/
def Outcome.failed (disk : Disk) (logText : String) (failure : Failure) (isReported : Bool) : Outcome :=
  if isReported then { disk, exitCode := 2, errors := logText ++ printed ["Error: " ++ failure.message] }
  else { disk, exitCode := 1, errors := logText, failure := some failure }

/-- The report of a run in a form. -/
def Format.render : Format → LayerLint.Outcome → String
  | .rich => Report.rich
  | .json => Report.json
  | .porcelain => Report.porcelain

/-- The exit code of a run. -/
def exitCode (options : Options) (outcome : LayerLint.Outcome) : Nat :=
  if options.exitZero then 0
  else if (options.strict && !outcome.violations.isEmpty) || outcome.shouldFail then 1
  else 0

/-- The table of coverage, which accompanies a report for readers unless the program is to be quiet. -/
def coverageText (globals : Globals) (format : Format) (outcome : LayerLint.Outcome) : String :=
  if format == .rich && !outcome.summaries.isEmpty && !globals.quiet then
    (Report.coverageTable outcome.summaries (outcome.overallCoverage.getD (Binary64.zero false))).toText
  else ""

/-- Runs the linter on a project. -/
def runLinter (around : Surroundings) (root : Location) (options : Lint.Options) :
    Logged LintError (Graph × LayerLint.Outcome) :=
  lint { project := ⟨around.disk, root⟩, runner := around.runner, elapsed := around.elapsed } options

/-- Reports what the linter finds. -/
def runLint (around : Surroundings) (globals : Globals) (options : Options) (format : Format)
    (config : Option Location) (root : Location) : Outcome :=
  let run := runLinter around root
    { detailed := options.detailed, config, measuresCoverage := !options.noCoverage }
  let logText := globals.logText run.log
  match run.result with
  | .error cause => .failed around.disk logText (.lint cause) cause.isReported
  | .ok (_, outcome) =>
    let report := format.render outcome
    { disk := around.disk
      exitCode := exitCode options outcome
      output := if report.isEmpty then "" else printed [report]
      errors := logText ++ coverageText globals format outcome }

/-- Prints the graph of a project. -/
def runGraph (around : Surroundings) (globals : Globals) (options : Options) (root : Location) : Outcome :=
  let run := runLinter around root { detailed := options.detailed, measuresCoverage := false }
  let logText := globals.logText run.log
  match run.result with
  | .error cause => .failed around.disk logText (.lint cause) cause.isReported
  | .ok (graph, _) =>
    { disk := around.disk, exitCode := 0, output := printed [Report.markdown graph], errors := logText }

/-- The outcome of a change to a configuration, with the lines that report its success. -/
def ofChange {α : Type} (globals : Globals) (change : Preset.Change α) (lines : α → List String) : Outcome :=
  let logText := globals.logText change.outcome.log
  match change.outcome.result with
  | .error cause => .failed change.disk logText (.preset cause) cause.isReported
  | .ok a => { disk := change.disk, exitCode := 0, output := printed (lines a), errors := logText }

/-- Makes a configuration; an empty name stands for no preset. -/
def runInit (disk : Disk) (globals : Globals) (options : Options) (root : Location) : Outcome :=
  match options.preset.filter (!·.isEmpty) with
  | none => ofChange globals (Preset.createPlain disk root) fun location => [s!"✓ Created {location.name}"]
  | some name =>
    ofChange globals (Preset.create disk root name options.createsDirectories) fun location =>
      let directories := (Preset.ofName? name).toList.flatMap (·.requiredDirectories.map (·.1))
      s!"✓ Created {location.name} with '{name}' preset" ::
        if options.createsDirectories then directories.map fun path => s!"✓ Created directory {path}" else []

/-- Brings a configuration up to date. -/
def runRefresh (disk : Disk) (globals : Globals) (options : Options) (root : Location) : Outcome :=
  ofChange globals (Preset.refresh disk root options.preset) fun name =>
    [s!"✓ Refreshed {Settings.fileName} with '{name}' preset (backup: {Preset.backupName})",
      "ℹ Your 'overrides' section has been preserved."]

/-- The help for readers of the command line. -/
def helpText : List String :=
  ["Usage: archlint [--verbose] [--quiet] [--version] [--help] COMMAND [OPTIONS]", "",
    "lint       Check the imports and the layout of a project.",
    "graph      Print the dependencies between files as markdown.",
    "init       Create a configuration.",
    "refresh    Update the preset of a configuration and keep the overrides.",
    "presets    List the presets."]

/-- Runs a request. A project that is not named is the current directory. -/
def run (around : Surroundings) : Request → Outcome
  | .help => { disk := around.disk, exitCode := 0, output := printed helpText }
  | .version => { disk := around.disk, exitCode := 0, output := printed [versionText] }
  | .command globals name options format config project =>
    let root := project.getD ⟨true, around.disk.current⟩
    match name with
    | .lint => runLint around globals options format config root
    | .graph => runGraph around globals options root
    | .init => runInit around.disk globals options root
    | .refresh => runRefresh around.disk globals options root
    | .presets => { disk := around.disk, exitCode := 0, output := (Report.presetTable Preset.all).toText }

end LayerLint.CommandLine
