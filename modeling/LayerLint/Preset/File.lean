import LayerLint.Log
import LayerLint.Preset.Document
import LayerLint.Preset.Error
import LayerLint.Settings.File

/-!
# Making configurations

A project gets a configuration from a preset or the plain one of three layers (`create`, `createPlain`). Later
`refresh` brings the section of the preset up to date; the overrides of the user and the former file, as a backup,
are kept. What was written before an error stays.
-/

namespace LayerLint.Preset

open Yaml

/-- The disk after an operation, and its result. -/
structure Change (α : Type) where
  disk : Disk
  outcome : Logged PresetError α

namespace Change

variable {α β : Type}

/-- The operation changes nothing. -/
def unchanged (disk : Disk) (result : Except PresetError α) : Change α := ⟨disk, .ofExcept result⟩

/-- The operation followed by another unless it fails. -/
def andThen (first : Change α) (next : Disk → α → Change β) : Change β :=
  match first.outcome.result with
  | .error e => ⟨first.disk, ⟨first.outcome.log, .error e⟩⟩
  | .ok a =>
    let second := next first.disk a
    ⟨second.disk, ⟨first.outcome.log ++ second.outcome.log, second.outcome.result⟩⟩

end Change

/-- Writes a text to a file. -/
def write (disk : Disk) (location : Location) (text : String) : Change Unit :=
  match disk.writeText location text with
  | .ok written => ⟨written, .ofExcept (.ok ())⟩
  | .error cause => .unchanged disk (.error (.file ⟨cause, location⟩))

/-- A message of the log. -/
def note (disk : Disk) (message : String) : Change Unit := ⟨disk, .note .info .presets message⟩

/-- The plain configuration of three layers. -/
def plainText : String := String.join <| [
    "# archlint configuration",
    "#",
    "# Strict 3-layer architecture:",
    "# - cmd: entry points, can only import from pkg",
    "# - pkg: public APIs and orchestration, can import from internal",
    "# - internal: isolated packages that cannot import each other",
    "",
    "rules:",
    "  directories_import:",
    "    cmd: [pkg]",
    "    pkg: [internal]",
    "    internal: []",
    "",
    "  # packages not transitively imported from cmd/",
    "  detect_unused: true"].map (· ++ "\n")

/-- The comment at the head of a configuration that is made from a preset. -/
def createdHeader (name : String) : String := String.join <| [
    s!"# Auto-generated by archlint init --preset={name}",
    "#",
    "# preset: full preset configuration, rewritten by 'archlint refresh'",
    "# overrides: your custom settings, preserved by 'archlint refresh'",
    "#",
    ""].map (· ++ "\n")

/-- The name of the file that keeps the former configuration. -/
def backupName : String := Settings.fileName ++ ".backup"

/-- The comment at the head of a configuration that is brought up to date. -/
def refreshedHeader (name : String) : String := String.join <| [
    s!"# Refreshed by archlint refresh with preset={name}",
    s!"# Previous config backed up to {backupName}",
    "#",
    ""].map (· ++ "\n")

/-- The place of a new configuration, where there must be nothing yet. -/
def freeLocation (disk : Disk) (root : Location) : Except PresetError Location :=
  let location := root.join Settings.fileName
  match disk.pathExists location with
  | .error cause => .error (.file ⟨cause, location⟩)
  | .ok true => .error (.alreadyExists Settings.fileName)
  | .ok false => .ok location

/-- Writes the plain configuration and gives its place. -/
def createPlain (disk : Disk) (root : Location) : Change Location :=
  (Change.unchanged disk (freeLocation disk root)).andThen fun disk location =>
    (write disk location plainText).andThen fun disk _ =>
      (note disk s!"Created {location}").andThen fun disk _ => .unchanged disk (.ok location)

/-- Makes directories one after the other. -/
def makeDirectories (disk : Disk) (root : Location) : List String → Change Unit
  | [] => .unchanged disk (.ok ())
  | path :: rest =>
    let (disk, made) := disk.makeDirectories (root.join path)
    (Change.unchanged disk (made.mapError .file)).andThen fun disk _ =>
      (note disk s!"Created directory {path}").andThen fun disk _ => makeDirectories disk root rest

/-- Writes the configuration of a preset, perhaps with the directories that it requires, and gives its place. -/
def create (disk : Disk) (root : Location) (name : String) (withDirectories : Bool) : Change Location :=
  match ofName? name with
  | none => .unchanged disk (.error (.unknownPreset name))
  | some preset =>
    (Change.unchanged disk do
      let location ← freeLocation disk root
      return (location, ← (ModulePath.detect disk root).mapError .modulePath)).andThen
        fun disk (location, modulePath) =>
          (write disk location (createdHeader name ++ preset.render modulePath none)).andThen fun disk _ =>
            (if withDirectories then makeDirectories disk root (preset.requiredDirectories.map (·.1))
              else .unchanged disk (.ok ())).andThen fun disk _ => .unchanged disk (.ok location)

/-- The entries of a configuration; a document without content has none. -/
def entriesOfText (text : String) : Except PresetError (List (Scalar × Value Nat)) :=
  match Value.ofText? text with
  | .error cause => .error (.document Settings.fileName cause)
  | .ok none => .ok []
  | .ok (some value) =>
    match Settings.openDocument value with
    | .map _ entries => .ok entries
    | value => if value.isFalsy then .ok [] else .error (.notMapping Settings.fileName)

/-- The preset with the name. -/
def known (name : String) : Except PresetError Preset :=
  match ofName? name with
  | some preset => .ok preset
  | none => .error (.unknownPreset name)

/-- The preset that is asked for, or that the configuration names. -/
def chosen (entries : List (Scalar × Value Nat)) (name : Option String) : Except PresetError Preset :=
  let inFile : Option (Value Nat) :=
    match lookup? (.text "preset") entries with
    | some (.map _ fields) => (lookup? (.text "name") fields).filter (!·.isFalsy)
    | _ => none
  match name, inFile with
  | some name, _ => known name
  | none, none => .error .withoutPreset
  | none, some value => if value.isWritable then known value.toText else .error .unwritableName

/-- The overrides of a configuration, `none` where there are none. -/
def overridesOf (entries : List (Scalar × Value Nat)) : Except PresetError (Option (Value Nat)) :=
  match lookup? (.text "overrides") entries with
  | none | some (.scalar _ .null) => .ok none
  | some (.map mark fields) => .ok (if fields.isEmpty then none else some (.map mark fields))
  | some _ => .error (.wrongOverrides Settings.fileName)

/-- The path of the module: the one that the configuration gives, or else the one that the project declares. -/
def modulePathFor (disk : Disk) (root : Location) (entries : List (Scalar × Value Nat)) :
    Except PresetError String :=
  match (lookup? (.text "module") entries).filter (!·.isFalsy) with
  | some value => if value.isWritable then .ok value.toText else .error .unwritable
  | none => (ModulePath.detect disk root).mapError .modulePath

/-- The path of the module for a configuration that is written with these overrides. -/
def writtenPath (disk : Disk) (root : Location) (entries : List (Scalar × Value Nat))
    (overrides : Option (Value Nat)) : Except PresetError String := do
  let modulePath ← modulePathFor disk root entries
  if overrides.all (·.isWritable) then return modulePath else throw .unwritable

/-- The text of the configuration of a project. -/
def currentText (disk : Disk) (location : Location) : Except PresetError String :=
  match disk.isFile location with
  | .error cause => .error (.file ⟨cause, location⟩)
  | .ok false => .error (.missingFile Settings.fileName)
  | .ok true =>
    (disk.readText location).mapError fun
      | .file cause => .file ⟨cause, location⟩
      | .encoding cause => .encoding cause

/-- Brings the preset of a configuration up to date and gives its name. -/
def refresh (disk : Disk) (root : Location) (name : Option String) : Change String :=
  let location := root.join Settings.fileName
  (Change.unchanged disk do
    let text ← currentText disk location
    let entries ← entriesOfText text
    let preset ← chosen entries name
    return (text, entries, preset, ← overridesOf entries)).andThen fun disk (text, entries, preset, overrides) =>
      (write disk (location.withName backupName) text).andThen fun disk _ =>
        (Change.unchanged disk (writtenPath disk root entries overrides)).andThen fun disk modulePath =>
          (write disk location
            (refreshedHeader preset.name ++
              preset.render modulePath (overrides.map fun v => v.remark some))).andThen fun disk _ =>
            (note disk s!"Refreshed {location} with preset {preset.name}").andThen fun disk _ =>
              .unchanged disk (.ok preset.name)

end LayerLint.Preset
