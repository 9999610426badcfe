import LayerLint.Binary64.Decimal
import LayerLint.Text.Quoted
import LayerLint.Text.Search

/-!
# JSON documents

A JSON value and its text with two spaces of indentation for each level, in ASCII: every other character of a
string is written as an escape of its UTF-16 units.
-/

namespace LayerLint

/-- A JSON value. Numbers are whole or floating-point; the fields of an object are in order. -/
inductive Json where
  | null
  | bool (value : Bool)
  | int (value : Int)
  | number (value : Binary64)
  | string (value : String)
  | array (items : List Json)
  | object (fields : List (String × Json))

namespace Json

/-- The UTF-16 units of a character. -/
def units (c : Char) : List Nat :=
  if c.toNat < 0x10000 then [c.toNat]
  else
    let offset := c.toNat - 0x10000
    [0xD800 + offset / 0x400, 0xDC00 + offset % 0x400]

/-- A character as it stands in a string. -/
def escapedChar (c : Char) : List Char :=
  if c = '"' then ['\\', '"']
  else if c = '\\' then ['\\', '\\']
  else if c = '\n' then ['\\', 'n']
  else if c = '\r' then ['\\', 'r']
  else if c = '\t' then ['\\', 't']
  else if c = '\x0c' then ['\\', 'f']
  else if c = '\x08' then ['\\', 'b']
  else if 0x20 ≤ c.toNat ∧ c.toNat ≤ 0x7E then [c]
  else (units c).flatMap fun unit => '\\' :: 'u' :: Text.hexDigits 4 unit

/-- A string in quotes. -/
def stringText (s : String) : String := String.ofList ('"' :: s.toList.flatMap escapedChar ++ ['"'])

/-- A floating-point number; the words for infinity and the missing number are not standard. -/
def numberText : Binary64 → String
  | .nan => "NaN"
  | .infinite negative => if negative then "-Infinity" else "Infinity"
  | x => x.toText

/-- A line break and the indentation of a level. -/
def newline (level : Nat) : String := "\n" ++ String.ofList (List.replicate (2 * level) ' ')

/-- What stands between brackets: nothing if there are no parts, else each part on a line of its own. -/
def bracketed (left right : String) (level : Nat) (parts : List String) : String :=
  if parts.isEmpty then left ++ right
  else left ++ newline (level + 1) ++ Text.join ("," ++ newline (level + 1)) parts ++ newline level ++ right

mutual

/-- The text of a value at a level of indentation. -/
def render (level : Nat) : Json → String
  | .null => "null"
  | .bool b => if b then "true" else "false"
  | .int n => toString n
  | .number x => numberText x
  | .string s => stringText s
  | .array items => bracketed "[" "]" level (renderItems (level + 1) items)
  | .object fields => bracketed "\x7b" "\x7d" level (renderFields (level + 1) fields)

/-- The texts of the items of an array. -/
def renderItems (level : Nat) : List Json → List String
  | [] => []
  | item :: rest => render level item :: renderItems level rest

/-- The texts of the fields of an object. -/
def renderFields (level : Nat) : List (String × Json) → List String
  | [] => []
  | (name, value) :: rest => (stringText name ++ ": " ++ render level value) :: renderFields level rest

end

/-- The text of a document. -/
def toText (value : Json) : String := value.render 0

end Json

end LayerLint
