import LayerLint.Graph
import LayerLint.Policy
import LayerLint.Violation

/-!
# One test file for each implementation file

Files of one directory with one base name form a group. A group has one implementation file and one test file;
whether a missing test file counts is up to the policy. Documentation, generated code, mocks and test helpers
are exempt.
-/

namespace LayerLint.Rule

/-- Ends of base names that are exempt. -/
def generatedSuffixes : List String := ["_gen", "_generated", ".pb", "_mock", "_mocks"]

/-- Parts of base names that are exempt. -/
def helperFragments : List String := ["_helper", "testutil"]

/-- The base name needs no partner. -/
def isNamingExempt (baseName : String) : Bool :=
  baseName == "doc" || generatedSuffixes.any (Text.endsWith baseName) || helperFragments.any (Text.contains baseName)

/-- The files of a directory that share a base name. -/
structure FileGroup where
  directory : String
  baseName : String
  implFiles : List String
  testFiles : List String
deriving DecidableEq, Repr

/-- Adds a file to the group of its directory and base name, or begins one. -/
def addToGroup (node : FileNode) : List FileGroup → List FileGroup
  | [] =>
    [{ directory := node.directory
       baseName := node.baseName
       implFiles := if node.isTest then [] else [node.relPath]
       testFiles := if node.isTest then [node.relPath] else [] }]
  | group :: rest =>
    if group.directory == node.directory && group.baseName == node.baseName then
      (if node.isTest then { group with testFiles := group.testFiles ++ [node.relPath] }
       else { group with implFiles := group.implFiles ++ [node.relPath] }) :: rest
    else group :: addToGroup node rest

/-- The groups of the files that are not exempt, in the order of their first files. -/
def groupFiles (graph : Graph) : List FileGroup :=
  (graph.nodes.filter fun node => !isNamingExempt node.baseName).foldl (fun groups node => addToGroup node groups) []

/-- A report of the naming rule. -/
def namingViolation (file issue rule fix : String) : Violation :=
  { kind := .testNamingConvention, file, issue, rule := "strict_test_naming: " ++ rule, fix }

/-- The report of a second implementation file. -/
def duplicateImpl (group : FileGroup) (file : String) : Violation :=
  namingViolation file
    ("Multiple implementation files found with base name '" ++ group.baseName ++ "' in directory '" ++
      group.directory ++ "'")
    "Each base name should have exactly one implementation file per directory"
    ("Rename or consolidate duplicate implementation files with base name '" ++ group.baseName ++ "'")

/-- The report of one of several test files. -/
def duplicateTest (group : FileGroup) (file : String) : Violation :=
  namingViolation file
    ("Multiple test files found with base name '" ++ group.baseName ++ "' in directory '" ++ group.directory ++ "'")
    "Each base name should have at most one test file (foo_test.go)"
    ("Consolidate test files into single '" ++ group.baseName ++
      "_test.go' file, or rename to use different base names")

/-- The report of a test file without implementation file. -/
def orphanedTest (group : FileGroup) (file : String) : Violation :=
  namingViolation file
    ("Test file '" ++ Path.baseName file ++ "' has no corresponding implementation file")
    "Each test file must have a corresponding implementation file (foo_test.go -> foo.go)"
    ("Create implementation file '" ++ group.baseName ++
      ".go' in the same directory, or remove/rename the orphaned test file")

/-- The report of an implementation file without test file. -/
def missingTest (group : FileGroup) (file : String) : Violation :=
  namingViolation file
    ("Implementation file '" ++ Path.baseName file ++ "' has no corresponding test file")
    "Each implementation file must have a test file (foo.go -> foo_test.go)"
    ("Create test file '" ++ group.baseName ++ "_test.go' in the same directory")

/-- The violations of a group. The first implementation file counts as the legitimate one. -/
def checkGroup (flagMissingTests : Bool) (group : FileGroup) : List Violation :=
  (group.implFiles.drop 1).map (duplicateImpl group) ++
    (if 1 < group.testFiles.length then group.testFiles.map (duplicateTest group) else []) ++
    (if group.implFiles.isEmpty then group.testFiles.map (orphanedTest group) else []) ++
    (if flagMissingTests && group.testFiles.isEmpty then (group.implFiles.take 1).map (missingTest group) else [])

/-- The violations of every group. -/
def checkTestNaming (graph : Graph) (policy : Policy) : List Violation :=
  (groupFiles graph).flatMap (checkGroup policy.flagMissingTests)

end LayerLint.Rule
