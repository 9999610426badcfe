import LayerLint.Text.Search

/-!
# Relative paths

A path is a text whose segments are separated by `/`. The tests below (`isUnder`, `isDirectChild`,
`isDeepDescendant`) compare texts and agree with the comparison of segment lists.
-/

namespace LayerLint.Path

open Text

/-- The directory of a file at the root of the project, and the local path of the module itself. -/
def rootDir : String := "."

/-- The segments of a path. -/
def segments (path : String) : List String := (splitAt '/' path.toList).map String.ofList

/-- The part of a path up to and with its last slash, and the part after it. -/
def splitLast (path : List Char) : List Char × List Char :=
  let last := (path.reverse.takeWhile (· != '/')).reverse
  (path.take (path.length - last.length), last)

/-- The text without the slashes at its end. -/
def dropTrailingSlashes (path : List Char) : List Char := (path.reverse.dropWhile (· == '/')).reverse

/-- The text without the slashes at both ends. -/
def trimSlashes (path : String) : String :=
  String.ofList (dropTrailingSlashes (path.toList.dropWhile (· == '/')))

/-- The path of the directory: all before the last slash, without trailing slashes unless nothing else is
left. -/
def parent (path : String) : String :=
  let lead := (splitLast path.toList).1
  String.ofList (if lead.all (· == '/') then lead else dropTrailingSlashes lead)

/-- The part after the last slash. -/
def baseName (path : String) : String := String.ofList (splitLast path.toList).2

/-- The path with every backslash written as a slash. -/
def withSlashes (path : String) : String :=
  String.ofList (path.toList.map fun c => if c = '\\' then '/' else c)

/-- The directory of a file, `.` for a file at the root. -/
def directoryOf (path : String) : String :=
  let directory := parent (withSlashes path)
  if directory.isEmpty then rootDir else directory

/-- The first segment of a path. -/
def topLevel (path : String) : String := String.ofList (path.toList.takeWhile (· != '/'))

/-- The path is the directory or lies below it. -/
def isUnder (path directory : String) : Bool := path == directory || startsWith path (directory ++ "/")

/-- The part of `path` after `directory` and a slash, if it begins so. -/
def below? (directory path : String) : Option String :=
  if startsWith path (directory ++ "/") then some (drop path (directory.length + 1)) else none

/-- `child` lies exactly one level below `directory`. -/
def isDirectChild (directory child : String) : Bool :=
  match below? directory child with
  | some rest => !contains rest "/"
  | none => false

/-- `child` lies two or more levels below `directory`. -/
def isDeepDescendant (directory child : String) : Bool :=
  match below? directory child with
  | some rest => contains rest "/"
  | none => false

/-- The path one level below `directory` on the way to `child`; `child` itself where it is not below. -/
def stepTowards (directory child : String) : String :=
  match below? directory child with
  | some rest => directory ++ "/" ++ topLevel rest
  | none => child

/-- The last segment of a path. -/
def lastSegment (path : String) : String := baseName path

/-- The path of an entry of a directory, where the root is written `.`. -/
def entry (directory name : String) : String :=
  if directory == rootDir then name else directory ++ "/" ++ name

/-- The path is one of the ignored paths or lies below one; slashes at the end of an ignored path do not
count. -/
def isIgnored (path : String) (ignored : List String) : Bool :=
  ignored.any fun entry => isUnder path (String.ofList (dropTrailingSlashes entry.toList))

end LayerLint.Path
