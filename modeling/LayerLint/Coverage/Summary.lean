import LayerLint.Rule.Coverage

/-!
# Summaries of coverage

The mean coverage of the packages below each scanned directory, and of all packages.
-/

namespace LayerLint.Coverage

/-- The coverage below one scanned directory. -/
structure DirectorySummary where
  directory : String
  packages : Nat
  packagesWithTests : Nat
  average : Binary64
deriving DecidableEq, Repr

/-- The measured packages below a directory. -/
def membersOf (results : List PackageCoverage) (modulePath directory : String) : List PackageCoverage :=
  results.filter fun result => Path.isUnder (Rule.pathOfPackage result.packagePath modulePath) directory

/-- The summary of the packages below a directory, if there are any. -/
def summaryOf? (results : List PackageCoverage) (modulePath directory : String) : Option DirectorySummary :=
  let members := membersOf results modulePath directory
  if members.isEmpty then none
  else
    some
      { directory
        packages := members.length
        packagesWithTests := (members.filter (·.hasTests)).length
        average := Binary64.mean (members.map (·.coverage)) }

/-- The summaries of the scanned directories in order, without those that hold no measured package. -/
def summarize (results : List PackageCoverage) (modulePath : String) (scanPaths : List String) :
    List DirectorySummary :=
  scanPaths.filterMap (summaryOf? results modulePath)

/-- The mean coverage of all packages, zero where there are none. -/
def overall (results : List PackageCoverage) : Binary64 := Binary64.mean (results.map (·.coverage))

/-- A percentage with one place. -/
def percentText (x : Binary64) : String := x.fixed 1 ++ "%"

/-- The row of a summary in the coverage table. -/
def summaryRow (s : DirectorySummary) : List String :=
  [s.directory, toString s.packages, toString s.packagesWithTests, percentText s.average]

/-- The row of all packages in the coverage table. -/
def totalRow (total : Binary64) : List String := ["Overall", "", "", percentText total]

/-- A cell marked as bold, unless it is empty. -/
def bold (cell : String) : String := if cell.isEmpty then cell else "[bold]" ++ cell ++ "[/bold]"

/-- The rows of the coverage table: one for each summary and one for all packages, in bold. -/
def tableRows (summaries : List DirectorySummary) (total : Binary64) : List (List String) :=
  summaries.map summaryRow ++ [(totalRow total).map bold]

end LayerLint.Coverage
