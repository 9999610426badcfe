import LayerLint.Outcome
import LayerLint.Text.Blank
import LayerLint.Text.Lines

/-!
# The report for people

The violations with their rules and fixes, framed by the texts of the error prompt where it is enabled.
-/

namespace LayerLint.Report

/-- That many horizontal bars. -/
def bars (n : Nat) : String := String.ofList (List.replicate n '─')

/-- The width of a section. -/
def sectionWidth : Nat := 78

/-- The text without line feeds at its ends. -/
def trimLineFeeds (s : String) : String := String.ofList (Text.trimChars (· == '\n') s.toList)

/-- A text below a title, between bars. -/
def frame (title body : String) : List String :=
  ["┌─ " ++ title ++ " " ++ bars (sectionWidth - (title.length + 4)), trimLineFeeds body, bars sectionWidth, ""]

/-- A framed text, nothing if there is none. -/
def frameIfAny (title body : String) : List String := if body.isEmpty then [] else frame title body

/-- The sign in front of a violation. -/
def marker (outcome : Outcome) (violation : Violation) : String :=
  if outcome.isWarning violation then "⚠" else "✗"

/-- The file of a violation, with the line number if it is known. -/
def place (violation : Violation) : String :=
  if 0 < violation.line then violation.file ++ ":" ++ toString violation.line else violation.file

/-- The lines of the fix: the first behind the word, the others below it. -/
def fixLines (fix : String) : List String :=
  match (Text.lines fix.toList).map String.ofList with
  | [] => ["  Fix: "]
  | first :: rest => ("  Fix: " ++ first) :: rest.map ("       " ++ ·)

/-- The lines of a violation. -/
def violationLines (outcome : Outcome) (violation : Violation) : List String :=
  [marker outcome violation ++ " " ++ violation.kind.label] ++
    (if violation.file.isEmpty then [] else ["  File: " ++ place violation]) ++
    ["  Issue: " ++ violation.issue, "  Rule: " ++ violation.rule] ++ fixLines violation.fix ++ [""]

/-- The lines before the violations of a project with an error prompt. -/
def preamble (prompt : ErrorPrompt) (preset : Option String) : List String :=
  ["ARCHITECTURAL VIOLATIONS DETECTED", ""] ++
    (match preset with
      | some name => if name.isEmpty then [] else [s!"This project uses the '{name}' architectural preset."]
      | none => []) ++
    ["The violations below show where the current structure departs from the target\n" ++
        "architecture. Review the goals and guidance to restructure the code accordingly.", ""] ++
    frameIfAny "ARCHITECTURAL GOALS" prompt.architecturalGoals ++
    (if prompt.principles.isEmpty then []
      else frame "KEY PRINCIPLES" (Text.join "\n" (prompt.principles.map ("  • " ++ ·))))

/-- The three families of violations that guidance tells apart. -/
structure Families where
  architecture : Bool
  tests : Bool
  whitebox : Bool
deriving DecidableEq, Repr

/-- The families that occur among violations. -/
def familiesOf (violations : List Violation) : Families :=
  { architecture := violations.any fun v => !v.kind.isTestRelated && v.kind != .whiteboxTest
    tests := violations.any (·.kind.isTestRelated)
    whitebox := violations.any (·.kind == .whiteboxTest) }

/-- The advice where to begin. -/
def tip (families : Families) : String :=
  if families.architecture then
    if families.tests || families.whitebox then
      "Address architectural violations first, then improve test quality and coverage."
    else
      "These violations show architectural misalignment, not just linter errors.\n" ++
        "     Restructure toward the goals above rather than moving code to silence them."
  else if families.whitebox then
    if families.tests then "Start with blackbox testing, then improve coverage."
    else "Blackbox tests (package foo_test) verify behavior through the public interface."
  else "Test critical paths and business logic first, then use coverage to find gaps."

/-- The lines after the violations of a project with an error prompt. -/
def guidance (violations : List Violation) (prompt : ErrorPrompt) : List String :=
  let families := familiesOf violations
  (if families.architecture then frameIfAny "REFACTORING GUIDANCE" prompt.refactoringGuidance else []) ++
    (if families.tests then frameIfAny "TEST COVERAGE GUIDANCE" prompt.coverageGuidance else []) ++
    (if families.whitebox then frameIfAny "BLACKBOX TESTING GUIDANCE" prompt.blackboxTestingGuidance else []) ++
    ["TIP: " ++ tip families, ""]

/-- The counts at the top of the report. -/
def header (outcome : Outcome) : List String :=
  ["Files: " ++ toString outcome.filesScanned ++ " scanned",
    "Rules: " ++ toString outcome.rulesEvaluated ++ " evaluated"] ++
    (match outcome.overallCoverage with
      | some percent => ["Coverage: " ++ percent.fixed 1 ++ "% overall"]
      | none => []) ++
    [""]

/-- The rules and the time behind the last line. -/
def statistics (outcome : Outcome) : String :=
  "(" ++ toString outcome.rulesEvaluated ++ " rules evaluated, " ++ (outcome.elapsed.divNat 1000).fixed 1 ++ "s)"

/-- The number of violations, and of warnings among them if there are any. -/
def total (outcome : Outcome) : String :=
  let count := outcome.violations.length
  let warnings := outcome.violations.countP outcome.isWarning
  toString count ++ (if count = 1 then " violation" else " violations") ++ " found" ++
    (if warnings = 0 then "" else ", " ++ toString warnings ++ " as warnings")

/-- The report as text. -/
def rich (outcome : Outcome) : String :=
  let lines :=
    if outcome.violations.isEmpty then ["✓ No violations found " ++ statistics outcome]
    else
      (if outcome.errorPrompt.enabled then preamble outcome.errorPrompt outcome.preset else []) ++
        outcome.violations.flatMap (violationLines outcome) ++
        (if outcome.errorPrompt.enabled then guidance outcome.violations outcome.errorPrompt else []) ++
        [total outcome ++ " " ++ statistics outcome]
  Text.join "\n" (header outcome ++ lines)

end LayerLint.Report
