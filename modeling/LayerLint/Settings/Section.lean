import LayerLint.Settings.Error

/-!
# Reading the settings of a section

A section is a map of settings. An absent setting and one without a value are the same (`setting?`); a value of
the wrong kind is an error that names the setting.
-/

namespace LayerLint.Settings

open Yaml

/-- The entries of a section. -/
abbrev Section := List (Scalar × Value Unit)

namespace Section

/-- The value of a setting, `none` where there is none. -/
def setting? (s : Section) (key : String) : Option (Value Unit) :=
  match lookup? (.text key) s with
  | some (.scalar _ .null) => none
  | value => value

/-- The text of a value, if it is one. -/
def asText? : Value Unit → Option String
  | .scalar _ (.text s) => some s
  | _ => none

/-- The texts of a list of texts. -/
def asTexts? : Value Unit → Option (List String)
  | .list _ items => items.mapM asText?
  | .pairs _ [] => some []
  | _ => none

/-- The section below a key, empty where there is none. -/
def below (s : Section) (place key : String) : Except SettingsError Section :=
  match s.setting? key with
  | none => .ok []
  | some (.map _ entries) => .ok entries
  | some _ => .error (.wrongKind place key .mapping)

/-- A list of texts, empty where there is none. -/
def texts (s : Section) (place key : String) : Except SettingsError (List String) :=
  match s.setting? key with
  | none => .ok []
  | some value =>
    match asTexts? value with
    | some items => .ok items
    | none => .error (.wrongKind place key .strings)

/-- A list of texts, the default where there is none or none is given. -/
def textsOr (s : Section) (place key : String) (default : List String) : Except SettingsError (List String) :=
  return match ← s.texts place key with
    | [] => default
    | items => items

/-- A truth value. -/
def truth (s : Section) (place key : String) (default : Bool) : Except SettingsError Bool :=
  match s.setting? key with
  | none => .ok default
  | some (.scalar _ (.bool b)) => .ok b
  | some _ => .error (.wrongKind place key .truth)

/-- A text, empty where there is none. -/
def text (s : Section) (place key : String) : Except SettingsError String :=
  match s.setting? key with
  | none => .ok ""
  | some value =>
    match asText? value with
    | some word => .ok word
    | none => .error (.wrongKind place key .text)

/-- The text of a key. -/
def keyText (key : Scalar) : Except SettingsError String :=
  if key.isWritable then .ok key.toText else .error .unwritable

/-- The text of a value. -/
def valueText (value : Value Unit) : Except SettingsError String :=
  if value.isWritable then .ok value.toText else .error .unwritable

/-- The floating-point number nearest to a number. -/
def numberOf (place key : String) : Value Unit → Except SettingsError Binary64
  | .scalar _ (.float x) => .ok x
  | .scalar _ (.strayNan _) => .ok .nan
  | .scalar _ (.int n) =>
    match Binary64.ofInt? n with
    | some x => .ok x
    | none => .error .hugeNumber
  | _ => .error (.wrongKind place key .number)

/-- A number. -/
def number (s : Section) (place key : String) (default : Binary64) : Except SettingsError Binary64 :=
  match s.setting? key with
  | none => .ok default
  | some value => numberOf place key value

end Section

end LayerLint.Settings
