import LayerLint.Graph
import LayerLint.Policy
import LayerLint.Violation

/-!
# Rules on local imports

Entry points below `cmd` do not import one another, packages below `pkg` import only their direct subpackages
there, and the directory policy names the paths that a directory may import. A blackbox test may import the
package that it tests.
-/

namespace LayerLint.Rule

/-- The top-level directory of entry points. -/
def entryPointDir : String := "cmd"

/-- The top-level directory of public packages. -/
def libraryDir : String := "pkg"

/-- The top-level directory of private packages. -/
def isolatedDir : String := "internal"

/-- The end of a test file's name. -/
def testFileSuffix : String := "_test.go"

/-- The end of the name of a package that holds only tests. -/
def testPackageSuffix : String := "_test"

/-- The path is one of the allowed ones or lies below one. -/
def isImportAllowed (localPath : String) (allowed : List String) : Bool :=
  allowed.any (Path.isUnder localPath ·)

/-- The allowed paths as a rule text shows them. -/
def allowedText (allowed : List String) : String := "[" ++ Text.join " " allowed ++ "]"

/-- The file is a test. -/
def isTestFile (node : FileNode) : Bool := Text.endsWith node.relPath testFileSuffix

/-- The file is a test in a package of its own. -/
def isBlackboxTest (node : FileNode) : Bool := isTestFile node && Text.endsWith node.package testPackageSuffix

/-- An entry point imports only what lies below its own directory. -/
def checkEntryPoint (file directory localPath : String) : List Violation :=
  if (Path.below? directory localPath).isSome then []
  else
    [{ kind := .crossEntryPoint
       file
       issue := s!"{directory} imports {localPath}"
       rule := s!"{entryPointDir} packages must not import other {entryPointDir} packages"
       fix := s!"Extract shared code to {libraryDir}/ or {isolatedDir}/" }]

/-- A library package imports only its direct subpackages. -/
def checkLibrary (file directory localPath : String) : List Violation :=
  if Path.isDirectChild directory localPath then []
  else if Path.isDeepDescendant directory localPath then
    [{ kind := .skipLevel
       file
       issue := s!"{directory} imports {localPath}"
       rule := "Can only import direct subpackages, not nested ones"
       fix := "Import " ++ Path.stepTowards directory localPath ++ " instead" }]
  else
    [{ kind := .pkgToPkg
       file
       issue := s!"{directory} imports {localPath}"
       rule := s!"{libraryDir} packages must not import other {libraryDir} packages (except own subpackages)"
       fix := s!"Import from {isolatedDir}/ or define interface locally" }]

/-- Where the directory policy has an entry for a file, the file imports only what the entry allows. -/
def checkDirectoryPolicy (policy : Policy) (file directory localPath : String) : List Violation :=
  match policy.allowedImports? directory (Path.topLevel directory) with
  | none => []
  | some (key, allowed) =>
    if isImportAllowed localPath allowed then []
    else
      [{ kind := .forbiddenImport
         file
         issue := s!"{directory} imports {localPath}"
         rule := s!"{key} can only import from: " ++ allowedText allowed
         fix :=
           if Path.topLevel directory == isolatedDir && Path.topLevel localPath == isolatedDir then
             "Use interfaces and dependency inversion instead of direct imports"
           else "Restructure dependencies according to allowed imports" }]

/-- The violations of one local import. -/
def checkImport (policy : Policy) (node : FileNode) (localPath : String) : List Violation :=
  let directory := node.directory
  if isBlackboxTest node && localPath == directory then []
  else
    let bothIn := fun top => Path.topLevel directory == top && Path.topLevel localPath == top
    (if bothIn entryPointDir then checkEntryPoint node.relPath directory localPath else []) ++
      (if bothIn libraryDir then checkLibrary node.relPath directory localPath else []) ++
      checkDirectoryPolicy policy node.relPath directory localPath

/-- The violations of a file, import by import. -/
def checkFile (policy : Policy) (node : FileNode) : List Violation :=
  node.localPaths.flatMap (checkImport policy node)

/-- The violations of every file, in the order of the graph. -/
def checkImports (graph : Graph) (policy : Policy) : List Violation := graph.nodes.flatMap (checkFile policy)

end LayerLint.Rule
