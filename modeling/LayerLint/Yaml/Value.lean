import LayerLint.Yaml.Date
import LayerLint.Text.Digit
import LayerLint.Text.Quoted

/-!
# YAML values

Scalars, lists and maps. Every part of a value carries a mark: `Value Unit` is plain data, and in `Value Nat` equal
marks say that a document names one part in several places. The keys of a map are scalars, of which a number and
a truth value of equal size are one key (`sameKey`).

The language has one number that is missing, `.float .nan`. A text that is made a number may give another one, which
is a key of its own (`Scalar.strayNan`).
-/

namespace LayerLint.Yaml

/-- A value without parts. -/
inductive Scalar where
  | null
  | bool (value : Bool)
  | int (value : Int)
  | float (value : Binary64)
  /-- A number that is missing, made from a text at the part with the mark. -/
  | strayNan (mark : Nat)
  | text (value : String)
  | bytes (value : List UInt8)
  | date (value : Date)
  | timestamp (value : Timestamp)
deriving DecidableEq, Repr

instance : Inhabited Scalar := ⟨.null⟩

/-- A YAML value with marks on its parts. -/
inductive Value (ι : Type) where
  | scalar (mark : ι) (value : Scalar)
  | list (mark : ι) (items : List (Value ι))
  | map (mark : ι) (entries : List (Scalar × Value ι))
  | set (mark : ι) (members : List Scalar)
  /-- A list of pairs. -/
  | pairs (mark : ι) (items : List (Value ι × Value ι))
  /-- A collection inside of itself. -/
  | cycle (mark : ι) (isMap : Bool)

instance : Inhabited (Value Unit) := ⟨.scalar () .null⟩

namespace Scalar

/-- The whole number that a scalar is equal to, if there is one. -/
def asInt? : Scalar → Option Int
  | .bool b => some (if b then 1 else 0)
  | .int n => some n
  | .float x => x.toInt?
  | _ => none

/-- The instant of universal time that a scalar stands for, if it is known. -/
def asInstant? : Scalar → Option Int
  | .timestamp t => if t.offset.isSome then some t.instant else none
  | _ => none

/-- The scalars are one key of a map: they have one numeric value, name one instant or are the same. -/
def sameKey (a b : Scalar) : Bool :=
  match a.asInt?, b.asInt?, a.asInstant?, b.asInstant? with
  | some m, some n, _, _ => m == n
  | _, _, some s, some t => s == t
  | _, _, _, _ => a == b

/-- A byte between single or double quotes. -/
def shownByte (quote : Char) (b : UInt8) : List Char :=
  let c := Char.ofNat b.toNat
  if c = quote ∨ c = '\\' then ['\\', c]
  else if c = '\n' then ['\\', 'n']
  else if c = '\r' then ['\\', 'r']
  else if c = '\t' then ['\\', 't']
  else if 0x20 ≤ c.toNat ∧ c.toNat ≤ 0x7E then [c]
  else '\\' :: 'x' :: Text.hexDigits 2 b.toNat

/-- Bytes as a message shows them. -/
def shownBytes (bytes : List UInt8) : String :=
  let quote := Text.quoteFor (bytes.map fun b => Char.ofNat b.toNat)
  String.ofList ('b' :: quote :: bytes.flatMap (shownByte quote) ++ [quote])

/-- A scalar as a message shows it inside of a collection. -/
def shown : Scalar → String
  | .null => "None"
  | .bool b => if b then "True" else "False"
  | .int n => toString n
  | .float x => x.toText
  | .strayNan _ => Binary64.nan.toText
  | .text s => Text.quoted s
  | .bytes b => shownBytes b
  | .date d => d.shown
  | .timestamp t => t.shown

/-- A scalar as text of its own. -/
def toText : Scalar → String
  | .text s => s
  | .date d => d.toText
  | .timestamp t => t.toText
  | s => s.shown

/-- The scalar counts as nothing: empty, zero or false. -/
def isFalsy : Scalar → Bool
  | .null => true
  | .bool b => !b
  | .int n => n == 0
  | .float x => x.isZero
  | .text s => s.isEmpty
  | .bytes b => b.isEmpty
  | .strayNan _ | .date _ | .timestamp _ => false

/-- The scalar can be written: it is no whole number of too many digits. -/
def isWritable : Scalar → Bool
  | .int n => Text.isWritable n
  | _ => true

end Scalar

namespace Value

variable {ι κ : Type}

mutual

/-- The value as a message shows it inside of a collection. -/
def shown : Value ι → String
  | .scalar _ s => s.shown
  | .list _ items => "[" ++ ", ".intercalate (shownItems items) ++ "]"
  | .map _ entries => "\x7b" ++ ", ".intercalate (shownEntries entries) ++ "\x7d"
  | .set _ members =>
    if members.isEmpty then "set()" else "\x7b" ++ ", ".intercalate (members.map Scalar.shown) ++ "\x7d"
  | .pairs _ items => "[" ++ ", ".intercalate (shownPairs items) ++ "]"
  | .cycle _ isMap => if isMap then "\x7b...\x7d" else "[...]"

/-- The items of a list as a message shows them. -/
def shownItems : List (Value ι) → List String
  | [] => []
  | item :: rest => shown item :: shownItems rest

/-- The entries of a map as a message shows them. -/
def shownEntries : List (Scalar × Value ι) → List String
  | [] => []
  | (key, value) :: rest => (key.shown ++ ": " ++ shown value) :: shownEntries rest

/-- Pairs as a message shows them. -/
def shownPairs : List (Value ι × Value ι) → List String
  | [] => []
  | (a, b) :: rest => ("(" ++ shown a ++ ", " ++ shown b ++ ")") :: shownPairs rest

end

/-- The value as text of its own. -/
def toText : Value ι → String
  | .scalar _ s => s.toText
  | v => v.shown

/-- The value counts as nothing: empty, zero or false. -/
def isFalsy : Value ι → Bool
  | .scalar _ s => s.isFalsy
  | .list _ items => items.isEmpty
  | .map _ entries => entries.isEmpty
  | .set _ members => members.isEmpty
  | .pairs _ items => items.isEmpty
  | .cycle .. => false

mutual

/-- The value can be written, with all of its parts. -/
def isWritable : Value ι → Bool
  | .scalar _ s => s.isWritable
  | .list _ items => areWritableItems items
  | .map _ entries => areWritableEntries entries
  | .set _ members => members.all Scalar.isWritable
  | .pairs _ items => areWritablePairs items
  | .cycle .. => true

/-- All items can be written. -/
def areWritableItems : List (Value ι) → Bool
  | [] => true
  | item :: rest => isWritable item && areWritableItems rest

/-- All entries can be written. -/
def areWritableEntries : List (Scalar × Value ι) → Bool
  | [] => true
  | (key, value) :: rest => key.isWritable && isWritable value && areWritableEntries rest

/-- All pairs can be written. -/
def areWritablePairs : List (Value ι × Value ι) → Bool
  | [] => true
  | (a, b) :: rest => isWritable a && isWritable b && areWritablePairs rest

end

mutual

/-- The value with other marks. -/
def remark (f : ι → κ) : Value ι → Value κ
  | .scalar mark s => .scalar (f mark) s
  | .list mark items => .list (f mark) (remarkItems f items)
  | .map mark entries => .map (f mark) (remarkEntries f entries)
  | .set mark members => .set (f mark) members
  | .pairs mark items => .pairs (f mark) (remarkPairs f items)
  | .cycle mark isMap => .cycle (f mark) isMap

/-- Items with other marks. -/
def remarkItems (f : ι → κ) : List (Value ι) → List (Value κ)
  | [] => []
  | item :: rest => remark f item :: remarkItems f rest

/-- Entries with other marks. -/
def remarkEntries (f : ι → κ) : List (Scalar × Value ι) → List (Scalar × Value κ)
  | [] => []
  | (key, value) :: rest => (key, remark f value) :: remarkEntries f rest

/-- Pairs with other marks. -/
def remarkPairs (f : ι → κ) : List (Value ι × Value ι) → List (Value κ × Value κ)
  | [] => []
  | (a, b) :: rest => (remark f a, remark f b) :: remarkPairs f rest

end

/-- The value without marks. -/
def plain (value : Value ι) : Value Unit := value.remark fun _ => ()

end Value

/-- A text as plain data. -/
def Value.text (s : String) : Value Unit := .scalar () (.text s)

/-- A whole number as plain data. -/
def Value.int (n : Int) : Value Unit := .scalar () (.int n)

/-- A truth value as plain data. -/
def Value.bool (b : Bool) : Value Unit := .scalar () (.bool b)

/-- A list of texts as plain data. -/
def Value.texts (items : List String) : Value Unit := .list () (items.map .text)

/-- A map with text keys as plain data. -/
def Value.record (fields : List (String × Value Unit)) : Value Unit :=
  .map () (fields.map fun field => (.text field.1, field.2))

/-- The value of a key among entries. -/
def lookup? {ι : Type} (key : Scalar) (entries : List (Scalar × Value ι)) : Option (Value ι) :=
  (entries.find? fun entry => entry.1.sameKey key).map (·.2)

/-- Sets the value of a key: in place where the key is present, at the end otherwise. -/
def insertEntry {ι : Type} (key : Scalar) (value : Value ι) : List (Scalar × Value ι) → List (Scalar × Value ι)
  | [] => [(key, value)]
  | (k, v) :: rest => if k.sameKey key then (k, value) :: rest else (k, v) :: insertEntry key value rest

/-- The entries of a list of settings, of which the last for each key counts. -/
def entriesOf {ι : Type} (settings : List (Scalar × Value ι)) : List (Scalar × Value ι) :=
  settings.foldl (fun entries e => insertEntry e.1 e.2 entries) []

end LayerLint.Yaml
