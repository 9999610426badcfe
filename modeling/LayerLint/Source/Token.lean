import LayerLint.Text.Digit
import LayerLint.Text.Letter

/-!
# Tokens of Go source text

`tokens` cuts a source text into words, literals and marks and drops blanks and comments. A line break after a
token that can end a statement counts as a terminator, and so does the end of the text.
-/

namespace LayerLint.Source

/-- The kind of a token. -/
inductive TokenKind where
  /-- An identifier or a keyword. -/
  | word (text : String)
  /-- A string literal with its quotes. -/
  | string (raw : String)
  /-- A number or a character literal. -/
  | literal
  /-- An operator or a bracket. -/
  | mark (text : String)
  /-- A semicolon, written or implied by a line break. -/
  | terminator
  /-- A character that begins no token, or a literal that is not closed or has a malformed escape. -/
  | illegal
deriving DecidableEq, Repr

/-- A token and the number of its line, counted from one. -/
structure Token where
  kind : TokenKind
  line : Nat
deriving DecidableEq, Repr

/-- The words that are no identifiers. -/
def keywords : List String :=
  ["break", "case", "chan", "const", "continue", "default", "defer", "else", "fallthrough", "for", "func", "go", "goto",
    "if", "import", "interface", "map", "package", "range", "return", "select", "struct", "switch", "type", "var"]

/-- The keywords after which a line break ends a statement. -/
def endingKeywords : List String := ["break", "continue", "fallthrough", "return"]

/-- The words that stand for fixed values. -/
def valueWords : List String := ["true", "false", "nil", "iota"]

/-- The character may begin a word. -/
def isLetter (c : Char) : Bool := c.isAlpha || c == '_' || Text.isBeyondAscii Text.letterRanges c

/-- The character may continue a word. -/
def isLetterOrDigit (c : Char) : Bool := isLetter c || c.isDigit || Text.isBeyondAscii Text.letterMarkRanges c

/-- The character separates tokens and does nothing else. -/
def isSpace (c : Char) : Bool := c == ' ' || c == '\t' || c == '\r' || c == '\x0b' || c == '\x0c'

/-- The characters of operators and brackets. -/
def markChars : List Char := "+-*/%&|^<>=!()[]\x7b\x7d,.:~".toList

/-- The number of hexadecimal digits that follow a character behind a backslash. Apart from these three, any character
stands there by itself. -/
def escapeDigits (c : Char) : Nat := if c = 'x' then 2 else if c = 'u' then 4 else if c = 'U' then 8 else 0

/-- What a quoted literal has to go on with. -/
inductive Expected where
  /-- The character behind a backslash. -/
  | escaped
  /-- Hexadecimal digits, and then anything. -/
  | digits (count : Nat)
deriving DecidableEq, Repr

/-- The length of a literal up to its closing quote, if it is closed on its line and its escapes have their digits. -/
def quotedLength? (quote : Char) : Expected → List Char → Option Nat
  | _, [] => none
  | .escaped, c :: r => (quotedLength? quote (.digits (escapeDigits c)) r).map (· + 1)
  | .digits (count + 1), c :: r =>
    if Text.isHex c then (quotedLength? quote (.digits count) r).map (· + 1) else none
  | .digits 0, c :: r =>
    if c = quote then some 1
    else if c = '\n' then none
    else (quotedLength? quote (if c = '\\' then .escaped else .digits 0) r).map (· + 1)

/-- The length of a raw string up to its closing quote, if it is closed. -/
def rawLength? : List Char → Option Nat
  | [] => none
  | c :: r => if c = '\x60' then some 1 else (rawLength? r).map (· + 1)

/-- The length of a comment up to the sign that closes it, if it is closed. -/
def commentLength? : List Char → Option Nat
  | '*' :: '/' :: _ => some 2
  | [] => none
  | _ :: r => (commentLength? r).map (· + 1)

/-- The length of the rest of the line. -/
def lineLength (s : List Char) : Nat := (s.takeWhile (· != '\n')).length

/-- What stands at the beginning of a text, and its length: a token, or a comment. -/
def scan (c : Char) (r : List Char) : Option TokenKind × Nat :=
  if c = ';' then (some .terminator, 1)
  else if isLetter c then
    let tail := r.takeWhile isLetterOrDigit
    (some (.word (String.ofList (c :: tail))), tail.length + 1)
  else if c.isDigit || (c = '.' && (r.headD ' ').isDigit) then
    (some .literal, (r.takeWhile fun d => isLetterOrDigit d || d == '.').length + 1)
  else if c = '"' then
    match quotedLength? '"' (.digits 0) r with
    | some n => (some (.string (String.ofList (c :: r.take n))), n + 1)
    | none => (some .illegal, lineLength r + 1)
  else if c = '\'' then
    match quotedLength? '\'' (.digits 0) r with
    | some n => (some .literal, n + 1)
    | none => (some .illegal, lineLength r + 1)
  else if c = '\x60' then
    match rawLength? r with
    | some n => (some (.string (String.ofList (c :: r.take n))), n + 1)
    | none => (some .illegal, r.length + 1)
  else if c = '/' && r.headD ' ' = '/' then (none, lineLength r + 1)
  else if c = '/' && r.headD ' ' = '*' then
    match commentLength? (r.drop 1) with
    | some n => (none, n + 2)
    | none => (some .illegal, r.length + 1)
  else if c = '.' && r.take 2 = ['.', '.'] then (some (.mark "..."), 3)
  else if (c = '+' || c = '-') && r.headD ' ' = c then (some (.mark (String.ofList [c, c])), 2)
  else if markChars.contains c then (some (.mark (String.singleton c)), 1)
  else (some .illegal, 1)

/-- A line break after such a token ends a statement. -/
def TokenKind.endsStatement : TokenKind → Bool
  | .word text => !keywords.contains text || endingKeywords.contains text
  | .string _ | .literal | .illegal => true
  | .mark text => text == ")" || text == "]" || text == "\x7d" || text == "++" || text == "--"
  | .terminator => false

/-- The tokens of the rest of a text. The first `skip` characters belong to what was read before; `ends` says
whether a line break here ends a statement. -/
def tokensFrom : Nat → Nat → Bool → List Char → List Token
  | _, line, ends, [] => if ends then [⟨.terminator, line⟩] else []
  | skip + 1, line, ends, c :: r => tokensFrom skip (if c = '\n' then line + 1 else line) ends r
  | 0, line, ends, c :: r =>
    if c = '\n' then
      if ends then ⟨.terminator, line⟩ :: tokensFrom 0 (line + 1) false r else tokensFrom 0 (line + 1) false r
    else if isSpace c then tokensFrom 0 line ends r
    else
      match scan c r with
      | (some kind, n) => ⟨kind, line⟩ :: tokensFrom (n - 1) line kind.endsStatement r
      | (none, n) => tokensFrom (n - 1) line ends r

/-- The tokens of a source text. -/
def tokens (s : List Char) : List Token := tokensFrom 0 1 false s

end LayerLint.Source
