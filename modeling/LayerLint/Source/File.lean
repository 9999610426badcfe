import LayerLint.Graph
import LayerLint.Source.Usage
import LayerLint.Text.Utf8

/-!
# Reading a source file

The package, imports and used symbols of a file, from its bytes. Bytes that are no UTF-8 do no harm in comments
and string constants; an import made of them is an error.
-/

namespace LayerLint.Source

/-- The end of a source file's name. -/
def fileSuffix : String := ".go"

/-- The end of the base name of a test file. -/
def testMark : String := "_test"

/-- The base name of a file: its name without extension and test mark, so a file and its test share one. -/
def baseNameOf (fileName : String) : String :=
  if Text.endsWith fileName fileSuffix then
    let stem := Text.dropEnd fileName fileSuffix.length
    if Text.endsWith stem testMark then Text.dropEnd stem testMark.length else stem
  else fileName

/-- The name is that of a test file. -/
def isTestName (fileName : String) : Bool := Text.endsWith fileName (testMark ++ fileSuffix)

/-- A file with the symbols that it uses of each import. -/
structure Parsed where
  file : SourceFile
  usages : List (String × List String)
deriving DecidableEq, Repr

/-- Why the bytes of a file are refused. -/
inductive ParseError where
  | header (cause : HeaderError)
  | encoding (cause : Text.DecodeError)
deriving DecidableEq, Repr

/-- The header and the tree of a text. -/
def parseText (text : List Char) : Except HeaderError (Header × SyntaxTree) := do
  let tokens := tokens text
  return (← header tokens, SyntaxTree.ofTokens tokens)

/-- The first of the characters that stand for a single byte. They are the last of all and no letters. -/
def strayBase : Nat := 0x10FF00

/-- The character that stands for a byte. -/
def strayChar (b : UInt8) : Char := Char.ofNat (strayBase + b.toNat)

/-- The characters of a sequence of bytes: those of the text that it is, or one for each byte. -/
def sequenceChars (bytes : List UInt8) : List Char :=
  match Text.decode ⟨bytes.toArray⟩ with
  | .ok text => if text.toList.all (·.toNat < strayBase) then text.toList else bytes.map strayChar
  | .error _ => bytes.map strayChar

/-- The characters of bytes of which some are no text. The first `skip` bytes belong to a sequence that is already
read. -/
def byteChars : Nat → List UInt8 → List Char
  | _, [] => []
  | skip + 1, _ :: r => byteChars skip r
  | 0, b :: r =>
    let length := (Text.sequenceLength? b).getD 1
    if Text.continuationFault? b 1 (length - 1) r = none then
      sequenceChars (b :: r.take (length - 1)) ++ byteChars (length - 1) r
    else strayChar b :: byteChars 0 r

/-- The bytes of a character, or the one that it stands for. -/
def charBytes (c : Char) : List UInt8 :=
  if c.toNat < strayBase then (String.singleton c).toUTF8.toList else [(c.toNat - strayBase).toUInt8]

/-- The text whose bytes are given by characters. -/
def reread (s : String) : Except ParseError String :=
  match Text.decode ⟨(s.toList.flatMap charBytes).toArray⟩ with
  | .ok text => .ok text
  | .error e => .error (.encoding e)

/-- The text without the mark of byte order at its beginning. -/
def withoutMark : List Char → List Char
  | '\ufeff' :: r => r
  | s => s

/-- What is found in bytes that are no text, put together again: the header, and the symbols of all selections if
they are asked for. -/
def rereadAll (header : Header) (tree : SyntaxTree) (withUsages : Bool) :
    Except ParseError (Header × List (String × List String)) := do
  let package ← reread header.package
  let imports ← header.imports.mapM fun spec => do
    return ({ path := ← reread spec.path, name := ← spec.name.mapM reread } : ImportSpec)
  let references ← (if withUsages then tree.references else []).mapM fun (name, symbol) =>
    return (← reread name, ← reread symbol)
  return (⟨package, imports⟩, usagesOf references imports)

/-- The header and the used symbols of a file's bytes. Where they are no text, characters stand for the bytes that are
none, and what is found is put together again. -/
def parseBytes (bytes : ByteArray) (withUsages : Bool) :
    Except ParseError (Header × List (String × List String)) :=
  match Text.decode bytes with
  | .ok text => do
    let (header, tree) ← (parseText (withoutMark text.toList)).mapError .header
    return (header, if withUsages then usages tree header.imports else [])
  | .error _ => do
    let (header, tree) ← (parseText (withoutMark (byteChars 0 bytes.toList))).mapError .header
    rereadAll header tree withUsages

/-- The record of a file with the given path. -/
def parse (relPath : String) (bytes : ByteArray) (withUsages : Bool) : Except ParseError Parsed := do
  let (header, usages) ← parseBytes bytes withUsages
  let fileName := Path.baseName relPath
  return {
    file := {
      relPath
      package := header.package
      baseName := baseNameOf fileName
      isTest := isTestName fileName
      imports := header.imports.map (·.path) }
    usages }

end LayerLint.Source
