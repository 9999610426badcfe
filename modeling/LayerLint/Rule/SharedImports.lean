import LayerLint.Graph
import LayerLint.Policy
import LayerLint.Text.Glob
import LayerLint.Violation

/-!
# Third-party imports shared by layers

A layer is a key of the directory policy; a file belongs to the layer that names its directory or, of those
above it, the one with the longest name. A third-party package that files of two or more layers import is
reported, unless it is excluded by name or by pattern.
-/

namespace LayerLint.Rule

/-- The longer of two texts, the first if neither is longer. -/
def longer (a b : String) : String := if a.length < b.length then b else a

/-- The layer of a directory: the directory itself if it is one, else the longest layer above it. -/
def layerOf? (directory : String) (layers : List String) : Option String :=
  if layers.contains directory then some directory
  else
    match layers.filter (fun layer => Text.startsWith directory (layer ++ "/")) with
    | [] => none
    | first :: rest => some (rest.foldl longer first)

/-- The package has as many segments as the pattern, which matches it. -/
def isMatchedBy (package pattern : String) : Bool :=
  Text.count pattern '/' == Text.count package '/' && Glob.matchesText pattern package

/-- The pattern `p/*` covers `p` and all below it; any other covers the packages with as many segments that it
matches. -/
def isCoveredBy (package pattern : String) : Bool :=
  isMatchedBy package pattern || (Text.endsWith pattern "/*" && Path.isUnder package (Text.dropEnd pattern 2))

/-- The package is one of the exclusions or covered by one of the patterns. -/
def isExcluded (package : String) (exclusions patterns : List String) : Bool :=
  exclusions.contains package || patterns.any (isCoveredBy package)

/-- A place that imports a third-party package. -/
structure ImportLocation where
  package : String
  file : String
  layer : String
deriving DecidableEq, Repr

/-- The third-party imports of all files that belong to a layer, in order. -/
def thirdPartyImports (graph : Graph) (layers : List String) : List ImportLocation :=
  graph.nodes.flatMap fun node =>
    match layerOf? node.directory layers with
    | none => []
    | some layer =>
      (node.dependencies.filter (·.origin = .thirdParty)).map fun dep =>
        { package := dep.importPath, file := node.relPath, layer }

/-- The report of a shared package, from the places that import it. -/
def sharedImport (package firstFile : String) (layerCount : Nat) (found : List ImportLocation) : Violation :=
  let listing := Text.join "\n    - " (found.map fun place => place.file ++ " (layer: " ++ place.layer ++ ")")
  { kind := .sharedExternalImport
    file := firstFile
    issue := s!"External package '{package}' imported by {layerCount} layers\n  Imported by:\n    - {listing}"
    rule := "External packages should typically be owned by a single layer"
    fix :=
      s!"Consider: (1) Add '{package}' to shared_external_imports.exclusions if it's a utility, " ++
        "or (2) Refactor to centralize usage in one layer" }

/-- One violation for every third-party package that two or more layers import and nothing excludes. -/
def detectSharedImports (graph : Graph) (policy : Policy) : List Violation :=
  let places := thirdPartyImports graph policy.directoriesImport.keys
  (Text.distinct (places.map (·.package))).flatMap fun package =>
    let found := places.filter (·.package == package)
    let layerCount := (Text.distinct (found.map (·.layer))).length
    if layerCount < 2 then []
    else if isExcluded package policy.sharedImportExclusions policy.sharedImportExclusionPatterns then []
    else found.head?.toList.map fun first => sharedImport package first.file layerCount found

end LayerLint.Rule
