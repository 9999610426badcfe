import LayerLint.Json.Basic
import LayerLint.Outcome

/-!
# The report as a JSON document

An array with an entry for every violation and a summary.
-/

namespace LayerLint.Report

/-- The entry of a violation. -/
def violationJson (outcome : Outcome) (violation : Violation) : Json :=
  .object
    [("kind", .string violation.kind.code), ("label", .string violation.kind.label),
      ("file", .string violation.file), ("line", if 0 < violation.line then .int violation.line else .null),
      ("issue", .string violation.issue), ("rule", .string violation.rule), ("fix", .string violation.fix),
      ("severity", .string (if outcome.isWarning violation then "warning" else "error"))]

/-- The summary; the preset and the coverage stand there only if there is one. -/
def summaryJson (outcome : Outcome) : Json :=
  .object <|
    [("rules_evaluated", .int outcome.rulesEvaluated), ("violations_count", .int outcome.violations.length),
      ("files_scanned", .int outcome.filesScanned), ("elapsed_ms", .number outcome.elapsed),
      ("failed", .bool outcome.shouldFail)] ++
      (match outcome.preset with
        | some name => if name.isEmpty then [] else [("preset", .string name)]
        | none => []) ++
      (match outcome.overallCoverage with
        | some percent => [("overall_coverage", .number percent)]
        | none => [])

/-- The report as a JSON value. -/
def toJson (outcome : Outcome) : Json :=
  .object
    [("violations", .array (outcome.violations.map (violationJson outcome))), ("summary", summaryJson outcome)]

/-- The report as the text of a JSON document. -/
def json (outcome : Outcome) : String := (toJson outcome).toText

end LayerLint.Report
