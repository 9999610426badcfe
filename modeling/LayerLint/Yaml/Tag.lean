import LayerLint.Text.Digit

/-!
# What plain text stands for

A plain scalar is a truth value, a number, a time, nothing at all or a text, as its form says (`ofPlain`).
-/

namespace LayerLint.Yaml

/-- The kind of a node. -/
inductive Tag where
  | null
  | bool
  | int
  | float
  | timestamp
  | binary
  | text
  | list
  | map
  | set
  | orderedMap
  | pairs
  /-- The key that merges other maps. -/
  | merge
  /-- The key that gives a map the role of a scalar. -/
  | value
  | other (name : String)
deriving DecidableEq, Repr

namespace Tag

/-- The beginning of the full names of the standard tags. -/
def standardStem : String := "tag:yaml.org,2002:"

/-- The standard tags with their names. -/
def standard : List (String × Tag) :=
  [("null", .null), ("bool", .bool), ("int", .int), ("float", .float), ("timestamp", .timestamp), ("binary", .binary),
    ("str", .text), ("seq", .list), ("map", .map), ("set", .set), ("omap", .orderedMap), ("pairs", .pairs),
    ("merge", .merge), ("value", .value)]

/-- The tag with a full name. -/
def ofName (name : String) : Tag :=
  match standard.find? fun (short, _) => standardStem ++ short == name with
  | some (_, tag) => tag
  | none => .other name

/-- The short name of a standard tag. -/
def shortName? (tag : Tag) : Option String := (standard.find? fun (_, t) => t == tag).map (·.1)

end Tag

/-! ## Forms of plain text -/

/-- The spellings of truth values. -/
def truthWords : List (String × Bool) :=
  [("yes", true), ("Yes", true), ("YES", true), ("no", false), ("No", false), ("NO", false), ("true", true),
    ("True", true), ("TRUE", true), ("false", false), ("False", false), ("FALSE", false), ("on", true), ("On", true),
    ("ON", true), ("off", false), ("Off", false), ("OFF", false)]

/-- The spellings of nothing. -/
def nullWords : List String := ["", "~", "null", "Null", "NULL"]

/-- The text without a sign at its beginning. -/
def dropSign : List Char → List Char
  | '-' :: r | '+' :: r => r
  | s => s

/-- The character is one of a group or an underscore. -/
def orUnderscore (p : Char → Bool) (c : Char) : Bool := p c || c == '_'

/-- The character is an octal digit. -/
def isOctal (c : Char) : Bool := '0' ≤ c && c ≤ '7'

/-- The character is a binary digit. -/
def isBinary (c : Char) : Bool := c == '0' || c == '1'

/-- There are characters and all satisfy a condition. -/
def allSome (p : Char → Bool) (s : List Char) : Bool := !s.isEmpty && s.all p

/-- The text after groups of a colon and a number below sixty, of which there is at least one. -/
def afterSixties? : List Char → Option (List Char)
  | ':' :: a :: b :: r =>
    if a.isDigit && b.isDigit && a ≤ '5' then some ((afterSixties? r).getD r)
    else if a.isDigit then some ((afterSixties? (b :: r)).getD (b :: r))
    else none
  | [':', a] => if a.isDigit then some [] else none
  | _ => none

/-- The text of a whole number: binary, octal, decimal, hexadecimal or in sixties. -/
def isIntText (s : List Char) : Bool :=
  match dropSign s with
  | '0' :: 'b' :: r => allSome (orUnderscore isBinary) r
  | '0' :: 'x' :: r => allSome (orUnderscore Text.isHex) r
  | '0' :: r => r.all (orUnderscore isOctal)
  | c :: r =>
    c.isDigit &&
      match r.dropWhile (orUnderscore Char.isDigit) with
      | [] => true
      | rest => afterSixties? rest == some []
  | [] => false

/-- An exponent with a sign, or nothing. -/
def isExponent : List Char → Bool
  | [] => true
  | e :: sign :: r => (e == 'e' || e == 'E') && (sign == '-' || sign == '+') && allSome Char.isDigit r
  | _ => false

/-- The text of a floating-point number: with a point, in sixties with a point, infinite or missing. -/
def isFloatText (s : List Char) : Bool :=
  let t := dropSign s
  (match t with
    | '.' :: c :: r =>
      (t.length == s.length && c.isDigit && isExponent (r.dropWhile (orUnderscore Char.isDigit))) ||
        [".inf", ".Inf", ".INF"].contains (String.ofList t) ||
        [".nan", ".NaN", ".NAN"].contains (String.ofList s)
    | c :: r =>
      c.isDigit &&
        match r.dropWhile (orUnderscore Char.isDigit) with
        | '.' :: places => isExponent (places.dropWhile (orUnderscore Char.isDigit))
        | rest =>
          match afterSixties? rest with
          | some ('.' :: places) => places.all (orUnderscore Char.isDigit)
          | _ => false
    | [] => false)

/-- The fields of a time of day, as they are written. -/
structure TimeFields where
  hour : List Char
  minute : List Char
  second : List Char
  fraction : List Char
  /-- The sign, hours and minutes of the distance from universal time. -/
  zone : Option (Char × List Char × List Char)
deriving DecidableEq, Repr

/-- The fields of a date, perhaps with a time, as they are written. -/
structure DateFields where
  year : List Char
  month : List Char
  day : List Char
  time : Option TimeFields
deriving DecidableEq, Repr

/-- Up to two decimal digits at the beginning, at least one, and the rest. -/
def oneOrTwoDigits? : List Char → Option (List Char × List Char)
  | a :: b :: r => if a.isDigit && b.isDigit then some ([a, b], r) else if a.isDigit then some ([a], b :: r) else none
  | [a] => if a.isDigit then some ([a], []) else none
  | [] => none

/-- Two decimal digits at the beginning, and the rest. -/
def twoDigits? : List Char → Option (List Char × List Char)
  | a :: b :: r => if a.isDigit && b.isDigit then some ([a, b], r) else none
  | _ => none

/-- A character that has to stand at the beginning, and the rest. -/
def expect? (c : Char) : List Char → Option (List Char)
  | d :: r => if d = c then some r else none
  | [] => none

/-- The character separates a date from a time and a time from its zone. -/
def isTab (c : Char) : Bool := c == ' ' || c == '\t'

/-- Reads a zone that fills the rest of the text; there may be none. -/
def zoneFields? (s : List Char) : Option (Option (Char × List Char × List Char)) :=
  if s.isEmpty then some none
  else
    match s.dropWhile isTab with
    | ['Z'] => some (some ('Z', [], []))
    | sign :: r =>
      if sign = '-' ∨ sign = '+' then do
        let (hours, r) ← oneOrTwoDigits? r
        if r.isEmpty then return some (sign, hours, [])
        let (minutes, r) ← twoDigits? (← expect? ':' r)
        if r.isEmpty then return some (sign, hours, minutes) else none
      else none
    | [] => none

/-- Reads a time of day that fills the rest of the text. -/
def timeFields? (s : List Char) : Option TimeFields := do
  let (hour, s) ← oneOrTwoDigits? s
  let (minute, s) ← twoDigits? (← expect? ':' s)
  let (second, s) ← twoDigits? (← expect? ':' s)
  let (fraction, s) := match s with
    | '.' :: r => (r.takeWhile Char.isDigit, r.dropWhile Char.isDigit)
    | _ => ([], s)
  return { hour, minute, second, fraction, zone := ← zoneFields? s }

/-- Reads a date, perhaps with a time behind it. -/
def dateFields? (s : List Char) : Option DateFields := do
  let (century, s) ← twoDigits? s
  let (years, s) ← twoDigits? s
  let (month, s) ← oneOrTwoDigits? (← expect? '-' s)
  let (day, s) ← oneOrTwoDigits? (← expect? '-' s)
  let date : DateFields := { year := century ++ years, month, day, time := none }
  match s with
  | [] => return date
  | c :: r =>
    if c = 'T' ∨ c = 't' then return { date with time := some (← timeFields? r) }
    else if isTab c then return { date with time := some (← timeFields? (r.dropWhile isTab)) }
    else none

/-- The text of a date, written in full, or of a date with a time. -/
def isTimestampText (s : List Char) : Bool :=
  match dateFields? s with
  | some d => d.time.isSome || (d.month.length == 2 && d.day.length == 2)
  | none => false

/-- The tag that the form of a plain text gives it. -/
def Tag.ofPlain (s : List Char) : Tag :=
  let word := String.ofList s
  if truthWords.any (·.1 == word) then .bool
  else if isFloatText s then .float
  else if isIntText s then .int
  else if word == "<<" then .merge
  else if nullWords.contains word then .null
  else if isTimestampText s then .timestamp
  else if word == "=" then .value
  else if ["!", "&", "*"].contains word then .other (Tag.standardStem ++ "yaml")
  else .text

end LayerLint.Yaml
