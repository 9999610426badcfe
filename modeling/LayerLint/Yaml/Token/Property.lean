import LayerLint.Text.Utf8
import LayerLint.Yaml.Token.Basic
import LayerLint.Yaml.Token.Block
import LayerLint.Yaml.Token.Quoted

/-!
# Reading names, tags and directives

Each function reads what stands behind a sign at the beginning of a text and gives the token and the rest.
-/

namespace LayerLint.Yaml

/-- A space, the end of the line or the end of the text comes next. -/
def spaceAhead (s : List Char) : Bool := s.head? = some ' ' || breakAhead s

/-- Goes on if a condition holds. -/
def require (condition : Bool) : Except ReadError Unit := if condition then .ok () else .error .malformed

/-- The signs that may follow a name at once. -/
def afterName : List Char := "?:,]\x7d%@\x60".toList

/-- Reads the name of an anchor or alias. -/
def nameAt (s : List Char) : Except ReadError (String × List Char) := do
  let name := s.takeWhile isNameChar
  let rest := s.dropWhile isNameChar
  require (!name.isEmpty && (separatorAhead rest || rest.head?.any afterName.contains))
  return (String.ofList name, rest)

/-! ## Tags -/

/-- The character may stand in a tag. -/
def isTagChar (c : Char) : Bool := c.isAlphanum || "-;/?:@&=+$,_.!~*'()[]%".toList.contains c

/-- The bytes of a tag, in which a percent sign and two digits stand for one. -/
def tagBytes? : List Char → Option (List UInt8)
  | [] => some []
  | '%' :: a :: b :: r =>
    if Text.isHex a && Text.isHex b then (tagBytes? r).map ((hexValue [a, b]).toUInt8 :: ·) else none
  | c :: r => if c = '%' then none else (tagBytes? r).map (c.toNat.toUInt8 :: ·)

/-- Reads the text of a tag. -/
def tagText (s : List Char) : Except ReadError (String × List Char) := do
  let text := s.takeWhile isTagChar
  require (!text.isEmpty)
  match (tagBytes? text).bind fun bytes => String.fromUTF8? ⟨bytes.toArray⟩ with
  | some name => return (name, s.dropWhile isTagChar)
  | none => throw .malformed

/-- Reads a handle: an exclamation mark, or a word between two of them. -/
def handleAt (s : List Char) : Except ReadError (String × List Char) :=
  match s with
  | '!' :: ' ' :: r => .ok ("!", ' ' :: r)
  | '!' :: r =>
    match r.dropWhile isNameChar with
    | '!' :: rest => .ok (String.ofList ('!' :: r.takeWhile isNameChar ++ ['!']), rest)
    | _ => .error .malformed
  | _ => .error .malformed

/-- Reads a tag from behind its exclamation mark. -/
def tagAt (r : List Char) : Except ReadError (Token × List Char) := do
  let (token, rest) ←
    match r with
    | '<' :: s => do
      let (name, rest) ← tagText s
      match rest with
      | '>' :: rest => pure (Token.tag none name, rest)
      | _ => throw .malformed
    | r =>
      if separatorAhead r then pure (.tag none "!", r)
      else do
        let word := r.takeWhile fun c => c != ' ' && !isBreak c
        let (handle, rest) ← if word.contains '!' then handleAt ('!' :: r) else pure ("!", r)
        let (suffix, rest) ← tagText rest
        pure (.tag (some handle) suffix, rest)
  require (spaceAhead rest)
  return (token, rest)

/-! ## Directives -/

/-- Reads decimal digits, at least one. -/
def digitsAt (s : List Char) : Except ReadError (Nat × List Char) := do
  let digits := s.takeWhile Char.isDigit
  require (!digits.isEmpty)
  if Text.maxDigits < digits.length then throw (.tooManyDigits digits.length)
  return (digits.foldl (fun n c => 10 * n + (c.toNat - '0'.toNat)) 0, s.dropWhile Char.isDigit)

/-- Reads the version of the language. -/
def versionAt (s : List Char) : Except ReadError (Token × List Char) := do
  let (major, s) ← digitsAt (s.dropWhile (· == ' '))
  match s with
  | '.' :: s =>
    let (_, s) ← digitsAt s
    require (spaceAhead s)
    return (.version major, s)
  | _ => throw .malformed

/-- Reads a handle and the beginning of the tags that it stands for. -/
def tagStemAt (s : List Char) : Except ReadError (Token × List Char) := do
  let (handle, s) ← handleAt (s.dropWhile (· == ' '))
  require (s.head? = some ' ')
  let (stem, s) ← tagText (s.dropWhile (· == ' '))
  require (spaceAhead s)
  return (.tagStem handle stem, s)

/-- Reads a directive from behind its percent sign, with the end of its line. -/
def directiveAt (s : List Char) : Except ReadError (Token × List Char) := do
  let name := String.ofList (s.takeWhile isNameChar)
  let rest := s.dropWhile isNameChar
  require (!name.isEmpty && spaceAhead rest)
  let (token, rest) ←
    if name == "YAML" then versionAt rest
    else if name == "TAG" then tagStemAt rest
    else pure (.otherDirective, rest.dropWhile (!isBreak ·))
  match emptyLine? rest with
  | some rest => return (token, rest)
  | none => throw .malformed

end LayerLint.Yaml
