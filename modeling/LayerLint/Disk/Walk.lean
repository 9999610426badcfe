import LayerLint.Disk.Access

/-!
# Walking through a directory

`filesBelow` lists the files below a directory, those of a directory before those of its subdirectories and each by
name. Links to directories are not entered, and a directory whose path is too long to be listed is passed over.
-/

namespace LayerLint

/-- The location that segments lead to from another. -/
def Location.below (location : Location) (way : List String) : Location :=
  { location with parts := location.parts ++ way }

namespace Disk

/-- The directory that a location leads to, if it leads to one. -/
def directory? (disk : Disk) (location : Location) : Option (List String) :=
  match disk.resolve location true with
  | .ok (.present path) => if disk.node? path = some .directory then some path else none
  | _ => none

/-- What stands at a location is neither a directory nor a link to one. -/
def isFileEntry (disk : Disk) (location : Location) : Option Node → Bool
  | some (.file _) => true
  | some (.link _) => (disk.directory? location).isNone
  | some .directory | none => false

/-- The names in a directory, in order. The directory stands at a path and is listed by a location. -/
def listing (disk : Disk) (location : Location) (path : List String) : List String :=
  if maxPath < location.toText.utf8ByteSize then [] else Text.sort (Text.distinct (disk.names path))

/-- The rest of a path below a directory. -/
def pathBelow? (directory path : List String) : Option (List String) :=
  if directory.isPrefixOf path && directory.length < path.length then some (path.drop directory.length) else none

/-- The number of levels below a directory. -/
def levelsBelow (disk : Disk) (directory : List String) : Nat :=
  disk.nodes.foldr (fun (path, _) levels => max ((pathBelow? directory path).getD []).length levels) 0

/-- A walk of that many levels through a directory, which is listed by the location `start`, from the subdirectory at
`way` on: the ways to the files. It goes into the subdirectories for which `enters` holds of the way to them. -/
def walk (disk : Disk) (start : Location) (directory : List String) (enters : List String → Bool) :
    Nat → List String → List (List String)
  | 0, _ => []
  | levels + 1, way =>
    let names := disk.listing (start.below way) (directory ++ way)
    let files := names.filter fun name =>
      disk.isFileEntry (start.below (way ++ [name])) (disk.node? (directory ++ way ++ [name]))
    let entered := names.filter fun name =>
      disk.node? (directory ++ way ++ [name]) = some .directory && enters (way ++ [name])
    files.map (fun name => way ++ [name]) ++
      entered.flatMap fun name => disk.walk start directory enters levels (way ++ [name])

/-- The ways from a directory to the files below it, in the order of a walk that goes into the directories for which
`enters` holds of the way to them. -/
def filesBelow (disk : Disk) (start : Location) (directory : List String) (enters : List String → Bool) :
    List (List String) :=
  disk.walk start directory enters (disk.levelsBelow directory) []

end Disk

end LayerLint
