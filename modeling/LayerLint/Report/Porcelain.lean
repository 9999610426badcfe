import LayerLint.Outcome
import LayerLint.Text.Lines

/-!
# The report for other programs

One line `kind:file:line:issue` for every violation, with the first line of the issue and nothing in place of an
unknown line number.
-/

namespace LayerLint.Report

/-- The number of a line, nothing if it is unknown. -/
def lineNumber (line : Int) : String := if 0 < line then toString line else ""

/-- The line of a violation. -/
def porcelainLine (violation : Violation) : String :=
  Text.join ":" [violation.kind.code, violation.file, lineNumber violation.line, Text.firstLine violation.issue]

/-- The lines of all violations. -/
def porcelain (outcome : Outcome) : String := Text.join "\n" (outcome.violations.map porcelainLine)

end LayerLint.Report
