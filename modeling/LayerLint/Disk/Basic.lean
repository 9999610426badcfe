import LayerLint.Location
import LayerLint.Text.Quoted

/-!
# Files, directories and links

A `Disk` maps absolute paths to files, directories and symbolic links and has a current directory. `resolve`
follows the segments of a location, links included, to the path that it stands for.
-/

namespace LayerLint

/-- Why a file cannot be used. -/
inductive FileError where
  | notFound
  | alreadyExists
  | notDirectory
  | isDirectory
  | nameTooLong
  | tooManyLinks
deriving DecidableEq, Repr

namespace FileError

/-- The number of the error. -/
def number : FileError → Nat
  | .notFound => 2
  | .alreadyExists => 17
  | .notDirectory => 20
  | .isDirectory => 21
  | .nameTooLong => 36
  | .tooManyLinks => 40

/-- The wording of the error. -/
def reason : FileError → String
  | .notFound => "No such file or directory"
  | .alreadyExists => "File exists"
  | .notDirectory => "Not a directory"
  | .isDirectory => "Is a directory"
  | .nameTooLong => "File name too long"
  | .tooManyLinks => "Too many levels of symbolic links"

/-- The message about a file. -/
def message (e : FileError) (location : Location) : String :=
  "[Errno " ++ toString e.number ++ "] " ++ e.reason ++ ": " ++ Text.quoted location.toText

end FileError

/-- What stands at a path. -/
inductive Node where
  | file (content : ByteArray)
  | directory
  | link (target : String)

/-- Files are compared by their bytes. -/
instance : DecidableEq Node
  | .file a, .file b => @decidable_of_iff _ (a = b) (by simp) (ByteArray.instDecidableEq a b)
  | .directory, .directory => isTrue rfl
  | .link s, .link t => decidable_of_iff (s = t) (by simp)
  | .file _, .directory | .file _, .link _ | .directory, .file _ => isFalse (by simp)
  | .directory, .link _ | .link _, .file _ | .link _, .directory => isFalse (by simp)

/-- The files, directories and links by their absolute paths, and the current directory. The root is a directory
without an entry. -/
structure Disk where
  nodes : List (List String × Node)
  current : List String

namespace Disk

/-- What stands at an absolute path. -/
def node? (disk : Disk) (path : List String) : Option Node :=
  if path.isEmpty then some .directory else disk.nodes.lookup path

/-- The longest name of a file, in bytes. -/
def maxName : Nat := 255

/-- The longest path of a file, in bytes. -/
def maxPath : Nat := 4095

/-- The number of links that one location may pass through. -/
def maxLinks : Nat := 40

/-- Where a location leads: to something, or to a free name in a directory. -/
inductive Target where
  | present (path : List String)
  | absent (path : List String)
deriving DecidableEq, Repr

/-- The segments of a link's target; a slash at the end asks for a directory. -/
def linkSegments (target : String) : List String :=
  (Location.parse target).parts ++ (if Text.endsWith target "/" then ["."] else [])

/-- Follows segments from a directory up to a link that has to be followed. There `jump` goes on, from a directory
with the segments that are left. -/
def followSegments (disk : Disk) (last : Bool) (jump : List String → List String → Except FileError Target)
    (here : List String) : List String → Except FileError Target
  | [] => .ok (.present here)
  | part :: rest =>
    if part == "." then disk.followSegments last jump here rest
    else if part == ".." then disk.followSegments last jump here.dropLast rest
    else if maxName < part.utf8ByteSize then .error .nameTooLong
    else
      let next := here ++ [part]
      match disk.node? next with
      | none => if rest.isEmpty then .ok (.absent next) else .error .notFound
      | some .directory => disk.followSegments last jump next rest
      | some (.file _) => if rest.isEmpty then .ok (.present next) else .error .notDirectory
      | some (.link target) =>
        if rest.isEmpty && !last then .ok (.present next)
        else jump (if Text.startsWith target "/" then [] else here) (linkSegments target ++ rest)

/-- Follows segments from a directory, through no more than that many links. -/
def follow (disk : Disk) (last : Bool) : Nat → List String → List String → Except FileError Target
  | 0 => disk.followSegments last fun _ _ => .error .tooManyLinks
  | links + 1 => disk.followSegments last (disk.follow last links)

/-- Where a location leads; `last` says whether a link at its end is followed. -/
def resolve (disk : Disk) (location : Location) (last : Bool) : Except FileError Target :=
  if maxPath < location.toText.utf8ByteSize then .error .nameTooLong
  else if location.parts.any (Text.contains · "\x00") then .error .notFound
  else disk.follow last maxLinks (if location.absolute then [] else disk.current) location.parts

/-- The names in a directory. -/
def names (disk : Disk) (directory : List String) : List String :=
  disk.nodes.filterMap fun (path, _) =>
    match path.getLast? with
    | some name => if path.dropLast = directory then some name else none
    | none => none

end Disk

end LayerLint
