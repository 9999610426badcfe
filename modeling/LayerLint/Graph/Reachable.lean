import LayerLint.Graph

/-!
# Reachable packages

The packages that the files below an entry directory import, and those that these import in turn. Reaching a
path pulls in the imports of every file whose directory begins with it.
-/

namespace LayerLint.Graph

/-- The local imports of the nodes that satisfy a condition, each once. -/
def importsWhere (graph : Graph) (selects : FileNode → Bool) : List String :=
  Text.distinct ((graph.nodes.filter selects).flatMap (·.localPaths))

/-- What the files below an entry directory import. -/
def seeds (graph : Graph) (entryDir : String) : List String :=
  graph.importsWhere fun node => Path.topLevel node.directory == entryDir

/-- The reached paths with the imports of every node that one of them reaches. -/
def expand (graph : Graph) (reached : List String) : List String :=
  let found := graph.importsWhere fun node => reached.any (Text.startsWith node.directory ·)
  reached ++ found.filter (!reached.contains ·)

/-- Expands until nothing new is found, at most `rounds` times. -/
def saturate (graph : Graph) : Nat → List String → List String
  | 0, reached => reached
  | rounds + 1, reached =>
    let next := graph.expand reached
    if next.length = reached.length then reached else saturate graph rounds next

/-- The paths of the packages that files below an entry directory use, directly or not. Every round but the
last finds a new local import, so their number bounds the rounds. -/
def reachable (graph : Graph) (entryDir : String) : List String :=
  graph.saturate (graph.nodes.flatMap (·.localPaths)).length (graph.seeds entryDir)

end LayerLint.Graph
