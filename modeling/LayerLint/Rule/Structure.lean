import LayerLint.Disk.Walk
import LayerLint.Rule.Imports

/-!
# Rules on directories

Every required directory exists, holds source code and holds a scanned file; where other directories are not
allowed, every top-level directory is required or lies above a required one.
-/

namespace LayerLint.Rule

/-- The end of a source file's name. -/
def sourceSuffix : String := ".go"

/-- Top-level directories that are never unexpected. -/
def conventionalDirs : List String := ["vendor", "testdata"]

/-- The name is that of a source file that is no test. -/
def isSourceName (name : String) : Bool := Text.endsWith name sourceSuffix && !Text.endsWith name testFileSuffix

/-- A source file that is no test lies at or below the location. -/
def containsSource (disk : Disk) (location : Location) : Bool :=
  match disk.directory? location with
  | some directory => (disk.filesBelow location directory fun _ => true).any fun path => isSourceName (path.getLastD "")
  | none => false

/-- How a required directory is found on disk. -/
inductive Presence where
  | unknown
  | missing
  | notDirectory
  | empty
  | filled
deriving DecidableEq, Repr

/-- How the directory at a location is found. -/
def presence (disk : Disk) (location : Location) : Presence :=
  match disk.find? location with
  | .error _ => .unknown
  | .ok none => .missing
  | .ok (some .directory) => if containsSource disk location then .filled else .empty
  | .ok (some _) => .notDirectory

/-- The purpose of a directory as a rule. -/
def purposeRule (purpose : String) : String := "Directory purpose: " ++ purpose

/-- The report of a required directory, as it is found. -/
def presenceViolation? (directory purpose : String) : Presence → Option Violation
  | .unknown | .filled => none
  | .missing =>
    some
      { kind := .missingDirectory
        file := directory
        issue := s!"Required directory '{directory}' does not exist"
        rule := purposeRule purpose
        fix := s!"Create the directory: mkdir -p {directory}" }
  | .notDirectory =>
    some
      { kind := .missingDirectory
        file := directory
        issue := s!"'{directory}' exists but is not a directory"
        rule := purposeRule purpose
        fix := s!"Remove the file and create directory: rm {directory} && mkdir -p {directory}" }
  | .empty =>
    some
      { kind := .emptyDirectory
        file := directory
        issue := s!"Required directory '{directory}' exists but contains no {sourceSuffix} files"
        rule := purposeRule purpose
        fix := s!"Add code to {directory} or remove it from required_directories" }

/-- The directory is missing or no directory. -/
def Presence.isMissing : Presence → Bool
  | .missing | .notDirectory => true
  | _ => false

/-- The report of a required directory without scanned files. -/
def unusedDirectory (directory purpose : String) : Violation :=
  { kind := .unusedDirectory
    file := directory
    issue := s!"Required directory '{directory}' contains no scanned {sourceSuffix} files"
    rule := purposeRule purpose
    fix := s!"Add code to {directory} or remove it from required_directories" }

/-- Some file of the graph lies in the directory or below it. -/
def isUsedDirectory (graph : Graph) (directory : String) : Bool :=
  graph.nodes.any fun node => Path.isUnder node.directory directory

/-- One violation for every directory without scanned files. -/
def detectUnusedDirectories (graph : Graph) (required : List (String × String)) : List Violation :=
  (required.filter fun (directory, _) => !isUsedDirectory graph directory).map fun (directory, purpose) =>
    unusedDirectory directory purpose

/-- The top-level directory is hidden, conventional, required or above a required one. -/
def isExpectedDirectory (policy : Policy) (name : String) : Bool :=
  Text.startsWith name "." || conventionalDirs.contains name || policy.requiredDirectories.contains name ||
    policy.requiredDirectories.keys.any fun required => Text.startsWith required (name ++ "/")

/-- The report of an unexpected directory. -/
def unexpectedDirectory (name : String) : Violation :=
  { kind := .unexpectedDirectory
    file := name
    issue := s!"Directory '{name}' is not in the required structure"
    rule := "allow_other_directories is set to false - only required directories are allowed"
    fix := "Remove directory or add to required_directories in .archlint.yml" }

/-- The names of the directories at the root of a project, sorted; none where the root cannot be listed. -/
def topLevelDirs (disk : Disk) (root : Location) : List String :=
  match disk.directory? root with
  | some directory => (Text.sort (disk.names directory)).filter fun name => (disk.directory? (root.join name)).isSome
  | none => []

/-- One violation for every unexpected top-level directory. -/
def detectUnexpectedDirectories (disk : Disk) (root : Location) (policy : Policy) : List Violation :=
  ((topLevelDirs disk root).filter fun name => !isExpectedDirectory policy name).map unexpectedDirectory

/-- The violations of the required directories, and of all others where these are not allowed. Without required
directories nothing is checked. -/
def checkStructure (disk : Disk) (root : Location) (graph : Graph) (policy : Policy) : List Violation :=
  let required := policy.requiredDirectories.entries
  if required.isEmpty then []
  else
    let presenceOf := fun (directory : String) => presence disk (root.join directory)
    required.filterMap (fun (directory, purpose) => presenceViolation? directory purpose (presenceOf directory)) ++
      detectUnusedDirectories graph (required.filter fun (directory, _) => !(presenceOf directory).isMissing) ++
      (if policy.allowOtherDirectories then [] else detectUnexpectedDirectories disk root policy)

end LayerLint.Rule
