import LayerLint.Yaml.Node
import LayerLint.Yaml.Value

/-!
# Values as nodes

`Node.ofValue` writes a value as a tree of nodes. A part that occurs in several places, which equal marks say, is
written once under an anchor and named by aliases elsewhere. Anchors are numbered in the order in which the parts
occur for the second time.
-/

namespace LayerLint.Yaml

/-! ## Scalars as text -/

/-- The characters of base 64. -/
def base64Digits : List Char :=
  "ABCDEFGHIJKLMNOPQRSTUVWXYZabcdefghijklmnopqrstuvwxyz0123456789+/".toList

/-- The character for six bits. -/
def base64Digit (n : Nat) : Char := base64Digits.getD (n % 64) 'A'

/-- Bytes in base 64, in one line. -/
def base64 : List UInt8 → List Char
  | [] => []
  | [a] =>
    let n := a.toNat * 65536
    [base64Digit (n / 262144), base64Digit (n / 4096), '=', '=']
  | [a, b] =>
    let n := a.toNat * 65536 + b.toNat * 256
    [base64Digit (n / 262144), base64Digit (n / 4096), base64Digit (n / 64), '=']
  | a :: b :: c :: r =>
    let n := a.toNat * 65536 + b.toNat * 256 + c.toNat
    base64Digit (n / 262144) :: base64Digit (n / 4096) :: base64Digit (n / 64) :: base64Digit n :: base64 r

/-- The number of bytes in a line of base 64. -/
def base64Line : Nat := 57

/-- Bytes in lines of base 64. The number of bytes bounds the number of lines. -/
def base64Lines : Nat → List UInt8 → List Char
  | 0, _ => []
  | lines + 1, bytes =>
    if bytes.isEmpty then [] else base64 (bytes.take base64Line) ++ '\n' :: base64Lines lines (bytes.drop base64Line)

/-- The text of a floating-point number: a mantissa before an exponent always has a point. -/
def floatText : Binary64 → String
  | .nan => ".nan"
  | .infinite negative => if negative then "-.inf" else ".inf"
  | x =>
    let text := x.toText.toList
    if text.contains '.' then String.ofList text
    else
      String.ofList (text.takeWhile (· != 'e')) ++
        (if text.contains 'e' then ".0" else "") ++ String.ofList (text.dropWhile (· != 'e'))

/-- The tag and the text of a scalar. -/
def Scalar.written : Scalar → Tag × String
  | .null => (.null, "null")
  | .bool b => (.bool, if b then "true" else "false")
  | .int n => (.int, toString n)
  | .float x => (.float, floatText x)
  | .strayNan _ => (.float, floatText .nan)
  | .text s => (.text, s)
  | .bytes b => (.binary, String.ofList (base64Lines b.length b))
  | .date d => (.timestamp, d.toText)
  | .timestamp t => (.timestamp, t.toText)

/-- The scalar can have a name: dates and times can, as lists and maps can. -/
def Scalar.isNameable : Scalar → Bool
  | .date _ | .timestamp _ => true
  | _ => false

/-! ## Names -/

/-- What was met on the way through a value: the marks, and in order those that were met again. -/
structure Encounters where
  met : List Nat
  again : List Nat
deriving DecidableEq, Repr

namespace Encounters

/-- Nothing was met. -/
def start : Encounters := ⟨[], []⟩

/-- The mark was met before. -/
def knows (e : Encounters) (mark : Option Nat) : Bool := mark.any fun m => e.met.contains m

/-- Meets a mark. -/
def meet (e : Encounters) (mark : Option Nat) : Encounters :=
  match mark with
  | none => e
  | some m =>
    if e.met.contains m then (if e.again.contains m then e else { e with again := e.again ++ [m] })
    else { e with met := m :: e.met }

end Encounters

mutual

/-- The marks on the way through a value; what is known already is passed by. -/
def Value.encounter (e : Encounters) : Value (Option Nat) → Encounters
  | .scalar mark s => if s.isNameable then e.meet mark else e
  | .cycle mark _ => e.meet mark
  | .set mark _ => e.meet mark
  | .list mark items => if e.knows mark then e.meet mark else encounterItems (e.meet mark) items
  | .map mark entries => if e.knows mark then e.meet mark else encounterEntries (e.meet mark) entries
  | .pairs mark items => if e.knows mark then e.meet mark else encounterPairs (e.meet mark) items

/-- The marks on the way through items. -/
def encounterItems (e : Encounters) : List (Value (Option Nat)) → Encounters
  | [] => e
  | item :: rest => encounterItems (item.encounter e) rest

/-- The marks on the way through entries. -/
def encounterEntries (e : Encounters) : List (Scalar × Value (Option Nat)) → Encounters
  | [] => e
  | (_, value) :: rest => encounterEntries (value.encounter e) rest

/-- The marks on the way through pairs. -/
def encounterPairs (e : Encounters) : List (Value (Option Nat) × Value (Option Nat)) → Encounters
  | [] => e
  | (a, b) :: rest => encounterPairs (b.encounter (a.encounter e)) rest

end

/-- The name of a mark: its number, from one, in three digits. -/
def anchorName? (again : List Nat) (mark : Option Nat) : Option String :=
  mark.bind fun m => (again.findIdx? (· == m)).map fun i => "id" ++ padded 3 (i + 1)

/-- The node of a scalar without a name. -/
def Scalar.toNode (anchor : Option String) (s : Scalar) : Node Unit := .scalar () anchor s.written.1 s.written.2

/-- The node of a set: a map of its members to nothing. -/
def setNode (anchor : Option String) (members : List Scalar) : Node Unit :=
  .map () anchor .set (members.map fun s => (s.toNode none, Scalar.null.toNode none))

mutual

/-- The node of a value, with the marks that are written already, before and after. -/
def nodeFrom (again met : List Nat) : Value (Option Nat) → Node Unit × List Nat
  | .scalar mark s =>
    let name := if s.isNameable then anchorName? again mark else none
    match name, mark.any met.contains with
    | some name, true => (.alias name, met)
    | name, _ => (s.toNode name, mark.toList ++ met)
  | .cycle mark _ => (.alias ((anchorName? again mark).getD ""), met)
  | .set mark members =>
    match anchorName? again mark, mark.any met.contains with
    | some name, true => (.alias name, met)
    | name, _ => (setNode name members, mark.toList ++ met)
  | .list mark items =>
    match anchorName? again mark, mark.any met.contains with
    | some name, true => (.alias name, met)
    | name, _ =>
      let (nodes, met) := itemNodes again (mark.toList ++ met) items
      (.list () name .list nodes, met)
  | .map mark entries =>
    match anchorName? again mark, mark.any met.contains with
    | some name, true => (.alias name, met)
    | name, _ =>
      let (nodes, met) := entryNodes again (mark.toList ++ met) entries
      (.map () name .map nodes, met)
  | .pairs mark items =>
    match anchorName? again mark, mark.any met.contains with
    | some name, true => (.alias name, met)
    | name, _ =>
      let (nodes, met) := pairNodes again (mark.toList ++ met) items
      (.list () name .list nodes, met)

/-- The nodes of items. -/
def itemNodes (again met : List Nat) : List (Value (Option Nat)) → List (Node Unit) × List Nat
  | [] => ([], met)
  | item :: rest =>
    let (node, met) := nodeFrom again met item
    let (nodes, met) := itemNodes again met rest
    (node :: nodes, met)

/-- The nodes of entries. -/
def entryNodes (again met : List Nat) : List (Scalar × Value (Option Nat)) → List (Node Unit × Node Unit) × List Nat
  | [] => ([], met)
  | (key, value) :: rest =>
    let (node, met) := nodeFrom again met value
    let (nodes, met) := entryNodes again met rest
    ((key.toNode none, node) :: nodes, met)

/-- The nodes of pairs: lists of two. -/
def pairNodes (again met : List Nat) : List (Value (Option Nat) × Value (Option Nat)) → List (Node Unit) × List Nat
  | [] => ([], met)
  | (a, b) :: rest =>
    let (first, met) := nodeFrom again met a
    let (second, met) := nodeFrom again met b
    let (nodes, met) := pairNodes again met rest
    (.list () none .list [first, second] :: nodes, met)

end

/-- The node of a value. -/
def Node.ofValue (value : Value (Option Nat)) : Node Unit :=
  (nodeFrom (value.encounter .start).again [] value).1

end LayerLint.Yaml
