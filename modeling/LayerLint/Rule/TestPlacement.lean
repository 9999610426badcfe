import LayerLint.Rule.Imports

/-!
# Where tests live and which package they declare

Test files lie next to the code they test or in a directory `tests`, as the policy says, and blackbox tests
declare the package of their directory with the suffix `_test`.
-/

namespace LayerLint.Rule

/-- The directory of separated tests. -/
def separateTestsDir : String := "tests"

/-- The package of files at the root of the project. -/
def rootPackage : String := "main"

/-- The path lies in a directory `tests` at some depth. -/
def isInTestsDir (path : String) : Bool :=
  Text.startsWith path (separateTestsDir ++ "/") || Text.contains path ("/" ++ separateTestsDir ++ "/")

/-- The test files of the graph. -/
def testFiles (graph : Graph) : List FileNode := graph.nodes.filter isTestFile

/-- The report of a test file that lies on the wrong side. -/
def checkTestLocation (location : TestLocation) (file : String) : List Violation :=
  match location, isInTestsDir file with
  | .colocated, true =>
    [{ kind := .testFileLocation
       file
       issue := "Test file is in separate tests/ directory"
       rule := "Test files should be colocated with the code they test (location: colocated)"
       fix := "Move test file to the same directory as the code it tests" }]
  | .separate, false =>
    [{ kind := .testFileLocation
       file
       issue := "Test file is colocated with code instead of in tests/ directory"
       rule := "Test files should be in a separate tests/ directory (location: separate)"
       fix := "Move test file to tests/ directory mirroring the source structure" }]
  | _, _ => []

/-- One violation for every test file on the wrong side. -/
def checkTestLocations (graph : Graph) (policy : Policy) : List Violation :=
  (testFiles graph).flatMap fun node => checkTestLocation policy.testLocation node.relPath

/-- The package that a blackbox test declares: the last segment of its directory with the suffix `_test`. -/
def expectedTestPackage (path : String) : String :=
  let directory := Path.parent path
  let base := Path.baseName (if directory.isEmpty then Path.rootDir else directory)
  (if base.isEmpty || base == Path.rootDir then rootPackage else base) ++ testPackageSuffix

/-- The report of a test file in the package that it tests. -/
def whiteboxTest (file package : String) : Violation :=
  let expected := expectedTestPackage file
  { kind := .whiteboxTest
    file
    line := 1
    issue := s!"Test file uses whitebox testing (package {package} instead of {expected})"
    rule := "Blackbox testing is enforced to ensure tests validate the public API, not internal implementation"
    fix := s!"Change package declaration from 'package {package}' to 'package {expected}'" }

/-- One violation for every test file whose package lacks the suffix. -/
def checkBlackboxTests (graph : Graph) : List Violation :=
  ((testFiles graph).filter fun node => !Text.endsWith node.package testPackageSuffix).map fun node =>
    whiteboxTest node.relPath node.package

end LayerLint.Rule
