import LayerLint.Disk.Access
import LayerLint.Text.Blank
import LayerLint.Text.Search

/-!
# The path of a module

The file `go.mod` at the root of a project declares the path of its module in a line that begins with the word
`module`. The path may stand in double quotes.
-/

namespace LayerLint

namespace ModulePath

/-- The file that declares the path. -/
def fileName : String := "go.mod"

/-- The word before the path. -/
def directive : String := "module "

/-- Why there is no path. -/
inductive Error where
  | unreadable (location : Location) (cause : FileError)
  | undeclared (location : Location)
  | encoding (cause : Text.DecodeError)
deriving DecidableEq, Repr

/-- The wording of the error. -/
def Error.message : Error → String
  | .unreadable location cause => s!"Cannot detect module: {location} not readable (" ++ cause.message location ++ ")"
  | .undeclared location => s!"Cannot detect module: no module directive in {location}"
  | .encoding cause => cause.message

/-- The path that a line declares, if it declares one. -/
def ofLine? (line : List Char) : Option String :=
  let trimmed := String.ofList (Text.trim line)
  if Text.startsWith trimmed directive then
    let path := Text.trimChars (· == '"') (Text.trim (Text.drop trimmed directive.length).toList)
    if path.isEmpty then none else some (String.ofList path)
  else none

/-- The path that a text declares first. -/
def ofText? (text : String) : Option String := (Text.lines text.toList).findSome? ofLine?

/-- The path of the module at a location. -/
def detect (disk : Disk) (root : Location) : Except Error String :=
  let location := root.join fileName
  match disk.readText location with
  | .error (.file cause) => .error (.unreadable location cause)
  | .error (.encoding cause) => .error (.encoding cause)
  | .ok text =>
    match ofText? text with
    | some path => .ok path
    | none => .error (.undeclared location)

end ModulePath

end LayerLint
