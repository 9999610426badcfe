import LayerLint.Disk.Basic
import LayerLint.Text.Search
import LayerLint.Text.Utf8

/-!
# A tree of files in one stream of bytes

An archive is a sequence of entries, one for each file, directory and link, and one for what the tests of a package
print. An entry is a line with its kind, the number of bytes of its content and its name; then the content, and an
end of line. The content of a link is its target.
-/

namespace LayerLint.Archive

/-- The kind of an entry. -/
inductive Kind where
  | file
  | directory
  | link
  | tests
deriving DecidableEq, Repr

namespace Kind

/-- The word for a kind. -/
def name : Kind → String
  | .file => "file"
  | .directory => "directory"
  | .link => "link"
  | .tests => "tests"

/-- The kind that a word stands for. -/
def ofName? (word : String) : Option Kind := [file, directory, link, tests].find? (·.name == word)

end Kind

/-- An entry of an archive. -/
structure Entry where
  kind : Kind
  /-- The path of a file, directory or link, or the import path of a package. -/
  name : String
  content : List UInt8
deriving DecidableEq, Repr

/-- The byte that ends a line. -/
def lineFeed : UInt8 := 10

namespace Entry

/-- The bytes of an entry. -/
def bytes (entry : Entry) : List UInt8 :=
  let size := entry.content.length
  s!"{entry.kind.name} {size} {entry.name}\n".toUTF8.toList ++ entry.content ++ [lineFeed]

/-- The text of the content, if it is one. -/
def text? (entry : Entry) : Option String := String.fromUTF8? ⟨entry.content.toArray⟩

/-- The entry for what stands at a path. -/
def ofNode (path : List String) (node : Node) : Entry :=
  let name := Text.join "/" path
  match node with
  | .file content => ⟨.file, name, content.toList⟩
  | .directory => ⟨.directory, name, []⟩
  | .link target => ⟨.link, name, target.toUTF8.toList⟩

/-- The path of an entry and what stands there, if it is no output of tests. -/
def node? (entry : Entry) : Option (List String × Node) :=
  let path := (Location.parse entry.name).parts
  match entry.kind with
  | .file => some (path, .file ⟨entry.content.toArray⟩)
  | .directory => some (path, .directory)
  | .link => entry.text?.map fun target => (path, .link target)
  | .tests => none

/-- The package of an entry and what its tests print. -/
def testOutput? (entry : Entry) : Option (String × String) :=
  if entry.kind = .tests then entry.text?.map fun output => (entry.name, output) else none

end Entry

/-- The number that decimal digits stand for. -/
def number? (digits : List Char) : Option Nat :=
  if digits.isEmpty || !digits.all Char.isDigit then none
  else some (digits.foldl (fun n c => 10 * n + (c.toNat - '0'.toNat)) 0)

/-- The kind, the size and the name in the line of an entry. -/
def headOf? (line : List UInt8) : Option (Kind × Nat × String) := do
  let text ← String.fromUTF8? ⟨line.toArray⟩
  match Text.splitAt ' ' text.toList with
  | word :: size :: name =>
    return (← Kind.ofName? (String.ofList word), ← number? size, String.ofList (Text.joinAt ' ' name))
  | _ => none

/-- The entries that bytes stand for, if they are an archive. -/
def entries? (bytes : List UInt8) : Option (List Entry) :=
  match bytes with
  | [] => some []
  | first :: more => do
    let bytes := first :: more
    let line := bytes.takeWhile (· != lineFeed)
    let (kind, size, name) ← headOf? line
    let body := more.drop line.length
    let content := body.take size
    if content.length = size then
      return ⟨kind, name, content⟩ :: (← entries? (body.drop (size + 1)))
    else none
termination_by bytes.length
decreasing_by
  simp only [List.length_drop, List.length_cons]
  omega

/-- The disk of the entries; the paths lead from its root, which is the current directory too. -/
def diskOf (entries : List Entry) : Disk := ⟨entries.filterMap Entry.node?, []⟩

/-- The output of the tests of each package. -/
def testOutputs (entries : List Entry) : List (String × String) := entries.filterMap Entry.testOutput?

/-- The entries of what stands on a disk and did not stand there before. -/
def changes (before after : Disk) : List Entry :=
  (after.nodes.filter fun (path, node) => before.nodes.lookup path != some node).map fun (path, node) =>
    .ofNode path node

end LayerLint.Archive
