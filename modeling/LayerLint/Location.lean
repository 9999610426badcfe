import LayerLint.Path

/-!
# Locations of files

A location is an absolute path or one relative to the current directory, taken as text: empty segments and `.`
are dropped, `..` stays. Joining a location with an absolute path gives that path.
-/

namespace LayerLint

/-- A path to a file or directory. -/
structure Location where
  absolute : Bool
  parts : List String
deriving DecidableEq, Repr

namespace Location

/-- The location that a text names. -/
def parse (path : String) : Location :=
  { absolute := Text.startsWith path "/"
    parts := (Path.segments path).filter fun part => !part.isEmpty && part != "." }

/-- The location of a path below another. -/
def join (base : Location) (path : String) : Location :=
  let tail := parse path
  if tail.absolute then tail else { base with parts := base.parts ++ tail.parts }

/-- The text of a location. -/
def toText (location : Location) : String :=
  if location.absolute then "/" ++ Text.join "/" location.parts
  else if location.parts.isEmpty then "."
  else Text.join "/" location.parts

instance : ToString Location := ⟨toText⟩

/-- The last segment, empty if there is none. -/
def name (location : Location) : String := location.parts.getLastD ""

/-- The location of the directory that holds this one, the location itself where it has no segment. -/
def parent (location : Location) : Location := { location with parts := location.parts.dropLast }

/-- The location beside this one with another last segment. -/
def withName (location : Location) (name : String) : Location :=
  { location with parts := location.parts.dropLast ++ [name] }

/-- The path without `..`, each of which undoes the segment before it. -/
def collapse (parts : List String) : List String :=
  parts.foldl (fun kept part => if part == ".." then kept.dropLast else kept ++ [part]) []

/-- The absolute path of a location, as text and without `..`. -/
def absoluteParts (current : List String) (location : Location) : List String :=
  collapse (if location.absolute then location.parts else current ++ location.parts)

/-- Drops what two paths have in common at the beginning. -/
def dropCommon : List String → List String → List String × List String
  | a :: as, b :: bs => if a = b then dropCommon as bs else (a :: as, b :: bs)
  | as, bs => (as, bs)

/-- The way from one absolute path to another, `.` where they are the same. -/
def wayTo (start target : List String) : String :=
  let (up, down) := dropCommon start target
  let way := List.replicate up.length ".." ++ down
  if way.isEmpty then Path.rootDir else Text.join "/" way

end Location

end LayerLint
