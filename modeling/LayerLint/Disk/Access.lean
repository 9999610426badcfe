import LayerLint.Disk.Basic
import LayerLint.Text.Utf8
import LayerLint.Text.Lines

/-!
# Asking for, reading and writing files

A question whether something exists is answered `false` for a path that leads nowhere; only a name that is too
long is an error.
-/

namespace LayerLint.Disk

/-- What a location leads to, `none` if it leads nowhere. A name that is too long is an error. -/
def find? (disk : Disk) (location : Location) : Except FileError (Option Node) :=
  match disk.resolve location true with
  | .ok (.present path) => .ok (disk.node? path)
  | .ok (.absent _) => .ok none
  | .error .nameTooLong => .error .nameTooLong
  | .error _ => .ok none

/-- Something stands at the location. -/
def pathExists (disk : Disk) (location : Location) : Except FileError Bool :=
  return (← disk.find? location).isSome

/-- A directory stands at the location. -/
def isDirectory (disk : Disk) (location : Location) : Except FileError Bool :=
  return (← disk.find? location) matches some .directory

/-- A file stands at the location. -/
def isFile (disk : Disk) (location : Location) : Except FileError Bool :=
  return (← disk.find? location) matches some (.file _)

/-- The bytes of a file. -/
def readBytes (disk : Disk) (location : Location) : Except FileError ByteArray := do
  match ← disk.resolve location true with
  | .absent _ => .error .notFound
  | .present path =>
    match disk.node? path with
    | some (.file content) => .ok content
    | _ => .error .isDirectory

/-- Why a file is no text: it cannot be read, or its bytes are not UTF-8. -/
inductive TextError where
  | file (cause : FileError)
  | encoding (cause : Text.DecodeError)
deriving DecidableEq, Repr

/-- The text of a file, each end of line written as a line feed. -/
def readText (disk : Disk) (location : Location) : Except TextError String :=
  match disk.readBytes location with
  | .error e => .error (.file e)
  | .ok bytes =>
    match Text.decode bytes with
    | .error e => .error (.encoding e)
    | .ok text => .ok (String.ofList (Text.unifyNewlines text.toList))

/-- Sets what stands at a path: in place where the path is taken, at the end otherwise. -/
def setNode (path : List String) (node : Node) : List (List String × Node) → List (List String × Node)
  | [] => [(path, node)]
  | (p, n) :: rest => if p = path then (p, node) :: rest else (p, n) :: setNode path node rest

/-- The disk with something else at a path. -/
def put (disk : Disk) (path : List String) (node : Node) : Disk :=
  { disk with nodes := setNode path node disk.nodes }

/-- Writes a file, in place of the file that stands at the location. -/
def writeBytes (disk : Disk) (location : Location) (content : ByteArray) : Except FileError Disk := do
  match ← disk.resolve location true with
  | .absent path => .ok (disk.put path (.file content))
  | .present path =>
    match disk.node? path with
    | some (.file _) => .ok (disk.put path (.file content))
    | _ => .error .isDirectory

/-- Writes a text to a file. -/
def writeText (disk : Disk) (location : Location) (text : String) : Except FileError Disk :=
  disk.writeBytes location text.toUTF8

/-- Makes a directory in a directory that exists. -/
def makeDirectory (disk : Disk) (location : Location) : Except FileError Disk := do
  match ← disk.resolve location false with
  | .absent path => .ok (disk.put path .directory)
  | .present _ => .error .alreadyExists

/-- An error with the location that it is about. -/
structure LocatedError where
  cause : FileError
  location : Location
deriving DecidableEq, Repr

/-- The message of the error. -/
def LocatedError.message (e : LocatedError) : String := e.cause.message e.location

/-- Keeps an error of making a directory unless a directory is there already. -/
def keepDirectory (disk : Disk) (location : Location) (e : FileError) : Except LocatedError Disk :=
  match disk.isDirectory location with
  | .ok true => .ok disk
  | .ok false => .error ⟨e, location⟩
  | .error e => .error ⟨e, location⟩

/-- Makes a directory and those above it that are missing. A directory that is already there is left as it is.
The disk is returned in either case, for what was made before an error stays. -/
def makeDirectories (disk : Disk) (location : Location) : Disk × Except LocatedError Unit :=
  match disk.makeDirectory location with
  | .ok made => (made, .ok ())
  | .error .notFound =>
    if location.parts.isEmpty then (disk, .error ⟨.notFound, location⟩)
    else
      match disk.makeDirectories location.parent with
      | (disk, .error e) => (disk, .error e)
      | (disk, .ok ()) =>
        match disk.makeDirectory location with
        | .ok made => (made, .ok ())
        | .error e => (disk, (disk.keepDirectory location e).map fun _ => ())
  | .error e => (disk, (disk.keepDirectory location e).map fun _ => ())
termination_by location.parts.length
decreasing_by
  simp only [Location.parent, List.length_dropLast]
  cases hp : location.parts <;> simp_all

end LayerLint.Disk
