import LayerLint.Log
import LayerLint.Rule.Structure
import LayerLint.Rule.Unused

/-!
# What the rules write to the log

Required directories of which nothing can be known, a root that cannot be listed, and the number of reached
packages.
-/

namespace LayerLint.Rule

/-- A message of the rules on directories. -/
def structureNote (message : String) : LogRecord := ⟨.debug, .structureRules, message⟩

/-- Why the root of a project cannot be listed, if it cannot. -/
def listingError? (disk : Disk) (root : Location) : Option FileError :=
  match disk.find? root with
  | .error cause => some cause
  | .ok none => some .notFound
  | .ok (some .directory) => none
  | .ok (some _) => some .notDirectory

/-- The messages of the rules on directories. -/
def structureLog (disk : Disk) (root : Location) (policy : Policy) : List LogRecord :=
  if policy.requiredDirectories.isEmpty then []
  else
    (policy.requiredDirectories.keys.filterMap fun directory =>
      let location := root.join directory
      match disk.find? location with
      | .error cause => some (structureNote (s!"Cannot stat {location}: " ++ cause.message location))
      | .ok _ => none) ++
      if policy.allowOtherDirectories then []
      else
        (listingError? disk root).toList.map fun cause =>
          structureNote (s!"Cannot list project root {root}: " ++ cause.message root)

/-- The message of the search for unused packages. -/
def reachabilityLog (graph : Graph) : List LogRecord :=
  let reached := (graph.reachable entryPointDir).length
  let unused := (detectUnusedPackages graph).length
  [⟨.debug, .reachability, s!"Reachability: {reached} paths reached, {unused} unused packages"⟩]

end LayerLint.Rule
