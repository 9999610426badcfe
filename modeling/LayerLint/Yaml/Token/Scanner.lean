import LayerLint.Yaml.Token.Plain
import LayerLint.Yaml.Token.Property

/-!
# The tokens of a document

`tokens` cuts a text into tokens. Outside of brackets the columns decide where lists and maps begin and end. A
key is known only when its colon comes: until then its place is kept (`PossibleKey`), and the signs for the key
and for the beginning of its map are put there afterwards. The colon has to come on the same line and within
1024 characters.
-/

namespace LayerLint.Yaml

/-- A place where a key may have begun. -/
structure PossibleKey where
  /-- The number of tokens before it. -/
  before : Nat
  /-- The place can be nothing else. -/
  required : Bool
  position : Position
deriving DecidableEq, Repr

/-- What is known in the middle of a text. -/
structure Scanner where
  position : Position
  /-- The columns of the lists and maps around, the innermost first. -/
  indents : List Nat
  /-- The possible key inside of the innermost bracket, and those of the brackets around. -/
  possible : Option PossibleKey
  outer : List (Option PossibleKey)
  /-- A key may begin here. -/
  allowsKey : Bool
  /-- The tokens before, the last first. -/
  tokens : List Token
deriving DecidableEq, Repr

namespace Scanner

/-- The beginning of a text. -/
def start : Scanner := ⟨.start, [], none, [], true, []⟩

/-- The place is between brackets. -/
def inFlow (s : Scanner) : Bool := !s.outer.isEmpty

/-- Adds a token. -/
def add (s : Scanner) (token : Token) : Scanner := { s with tokens := token :: s.tokens }

/-- The column of a list or map lies to the right of those around. -/
def isDeeper (s : Scanner) (column : Nat) : Bool := s.indents.head?.all (· < column)

/-- The least indentation of what belongs to the innermost list or map. -/
def innerIndent (s : Scanner) : Nat := (s.indents.head?.map (· + 1)).getD 0

/-- Begins a list or map at a column unless one has begun there. -/
def openAt (s : Scanner) (column : Nat) (token : Token) : Scanner :=
  if s.isDeeper column then { s with indents := column :: s.indents, tokens := token :: s.tokens } else s

/-- Ends the lists and maps of a column that satisfies a condition, from the innermost on. -/
def close (s : Scanner) (ends : Nat → Bool) : Scanner :=
  { s with
    indents := s.indents.dropWhile ends
    tokens := (s.indents.takeWhile ends).map (fun _ => Token.blockEnd) ++ s.tokens }

/-- The colon of the key can no longer come. -/
def isStale (s : Scanner) (key : PossibleKey) : Bool :=
  key.position.line != s.position.line || decide (key.position.index + 1024 < s.position.index)

/-- Gives up the keys whose colon can no longer come. -/
def dropStale (s : Scanner) : Except ReadError Scanner :=
  let stale := fun (key : PossibleKey) => s.isStale key
  if (s.possible :: s.outer).any fun key => key.any fun k => stale k && k.required then .error .malformed
  else
    let keep := fun (key : Option PossibleKey) => key.filter fun k => !stale k
    .ok { s with possible := keep s.possible, outer := s.outer.map keep }

/-- Gives up the key of the innermost bracket. -/
def dropKey (s : Scanner) : Except ReadError Scanner :=
  if s.possible.any (·.required) then .error .malformed else .ok { s with possible := none }

/-- Keeps the place as that of a possible key, if one may begin here. -/
def noteKey (s : Scanner) : Except ReadError Scanner := do
  if s.allowsKey then
    let key : PossibleKey :=
      { before := s.tokens.length
        required := !s.inFlow && s.indents.head? == some s.position.column
        position := s.position }
    return { ← s.dropKey with possible := some key }
  else return s

/-- Sets whether a key may begin at the next token. -/
def allowKey (s : Scanner) (allows : Bool) : Scanner := { s with allowsKey := allows }

/-- Puts tokens behind the first `before` ones. -/
def insertTokens (s : Scanner) (before : Nat) (new : List Token) : Scanner :=
  let later := s.tokens.length - before
  { s with tokens := s.tokens.take later ++ new.reverse ++ s.tokens.drop later }

/-- The tokens of a text that ends here. -/
def finish (s : Scanner) : List Token :=
  let closed : Except ReadError Scanner := do
    let s ← s.dropStale
    let s ← s.dropKey
    return if s.inFlow then s else s.close fun _ => true
  match closed with
  | .ok s => s.tokens.reverse
  | .error cause => (Token.failure cause :: s.tokens).reverse

/-- A sign that begins a new document or ends one. -/
def documentSign (s : Scanner) (token : Token) : Except ReadError Scanner := do
  return (((← (s.close fun _ => true).dropKey).allowKey false).add token)

/-- An opening bracket. -/
def openFlow (s : Scanner) (token : Token) : Except ReadError Scanner := do
  let s ← s.noteKey
  return ({ s with possible := none, outer := s.possible :: s.outer }.allowKey true).add token

/-- A closing bracket. -/
def closeFlow (s : Scanner) (token : Token) : Except ReadError Scanner := do
  let s ← s.dropKey
  match s.outer with
  | [] => throw .malformed
  | key :: outer => return ({ s with possible := key, outer }.allowKey false).add token

/-- The sign for an item or for a key: outside of brackets it may begin a list or map. -/
def openSign (s : Scanner) (token opening : Token) (allowsKey : Bool) : Except ReadError Scanner := do
  require (s.inFlow || s.allowsKey)
  let s := if s.inFlow then s else s.openAt s.position.column opening
  return ((← s.dropKey).allowKey allowsKey).add token

/-- The colon of a key that was seen. -/
def closeKey (s : Scanner) (key : PossibleKey) : Scanner :=
  let deeper := !s.inFlow && s.isDeeper key.position.column
  let s := s.insertTokens key.before (if deeper then [.mapStart, .key] else [.key])
  { s with
    indents := if deeper then key.position.column :: s.indents else s.indents
    possible := none
    allowsKey := false }

/-- A colon. -/
def valueSign (s : Scanner) : Except ReadError Scanner :=
  match s.possible with
  | some key => .ok ((s.closeKey key).add .value)
  | none => s.openSign .value .mapStart (!s.inFlow)

/-- A token that may be a key. -/
def addWord (s : Scanner) (token : Token) : Except ReadError Scanner := do
  return ((← s.noteKey).allowKey false).add token

/-- The characters that begin no plain scalar unless a word follows. -/
def signs : List Char := "-?:,[]\x7b\x7d#&*!|>'\"%@\x60".toList

/-- A plain scalar may begin with the character. -/
def beginsPlain (inFlow : Bool) (c : Char) (r : List Char) : Bool :=
  !(isSeparator c || signs.contains c) ||
    (!separatorAhead r && (c == '-' || (!inFlow && (c == '?' || c == ':'))))

/-- Reads the token that begins with a character, and gives the number of its characters. -/
def step (s : Scanner) (c : Char) (r : List Char) : Except ReadError (Scanner × Nat) := do
  let length := fun (rest : List Char) => r.length + 1 - rest.length
  if s.position.column = 0 ∧ c = '%' then
    let (token, rest) ← directiveAt r
    return (← s.documentSign token, length rest)
  else if s.position.column = 0 ∧ boundaryAhead (c :: r) then
    return (← s.documentSign (if c = '-' then .documentStart else .documentEnd), 3)
  else if c = '[' then return (← s.openFlow .flowListStart, 1)
  else if c = '\x7b' then return (← s.openFlow .flowMapStart, 1)
  else if c = ']' then return (← s.closeFlow .flowListEnd, 1)
  else if c = '\x7d' then return (← s.closeFlow .flowMapEnd, 1)
  else if c = ',' then return (((← s.dropKey).allowKey true).add .comma, 1)
  else if c = '-' ∧ separatorAhead r then return (← s.openSign .item .listStart true, 1)
  else if c = '?' ∧ (s.inFlow ∨ separatorAhead r) then return (← s.openSign .key .mapStart (!s.inFlow), 1)
  else if c = ':' ∧ (s.inFlow ∨ separatorAhead r) then return (← s.valueSign, 1)
  else if c = '*' then
    let (name, rest) ← nameAt r
    return (← s.addWord (.alias name), length rest)
  else if c = '&' then
    let (name, rest) ← nameAt r
    return (← s.addWord (.anchor name), length rest)
  else if c = '!' then
    let (token, rest) ← tagAt r
    return (← s.addWord token, length rest)
  else if (c = '|' ∨ c = '>') ∧ !s.inFlow then
    let s := (← s.dropKey).allowKey true
    let (text, n) ← blockScalar (c == '>') (max 1 s.innerIndent) r
    return (s.add (.scalar false (String.ofList text)), n + 1)
  else if c = '\'' ∨ c = '"' then
    let (text, n) ← quotedFrom c 0 .none r
    return (← s.addWord (.scalar false (String.ofList text)), n + 1)
  else if beginsPlain s.inFlow c r then
    let (text, n, endsLine) := plainFrom s.inFlow s.innerIndent .none (c :: r)
    return ((← s.addWord (.scalar true (String.ofList text))).allowKey endsLine, n)
  else throw .malformed

/-- The place behind a comment, a blank or an end of line, which are no tokens. -/
def pass (s : Scanner) (c : Char) : Scanner :=
  { s with
    position := s.position.next c
    allowsKey := s.allowsKey || (isBreak c && !s.inFlow) }

/-- The number of further characters of a comment. -/
def commentLength (r : List Char) : Nat := (r.takeWhile (!isBreak ·)).length

/-- The tokens of the rest of a text. The first `skip` characters are already read. -/
def tokensFrom : Nat → Scanner → List Char → List Token
  | _, s, [] => s.finish
  | skip + 1, s, c :: r => tokensFrom skip { s with position := s.position.next c } r
  | 0, s, c :: r =>
    if c = ' ' ∨ isBreak c ∨ (c = '\ufeff' ∧ s.position.index = 0) then tokensFrom 0 (s.pass c) r
    else if c = '#' then tokensFrom (commentLength r) (s.pass c) r
    else
      let closed := if s.inFlow then s else s.close (s.position.column < ·)
      match closed.dropStale.bind fun s => s.step c r with
      | .ok (next, n) => tokensFrom (n - 1) { next with position := s.position.next c } r
      | .error cause => (Token.failure cause :: closed.tokens).reverse

end Scanner

/-- The first anchor that is given twice, or alias that names nothing, is a failure. -/
def checkNames (known : List String) : List Token → List Token
  | [] => []
  | .anchor name :: rest =>
    if known.contains name then [.failure .malformed] else .anchor name :: checkNames (name :: known) rest
  | .alias name :: rest =>
    if known.contains name then .alias name :: checkNames known rest else [.failure .malformed]
  | token :: rest => token :: checkNames known rest

/-- The tokens of a text. -/
def tokens (s : List Char) : List Token :=
  if s.all isPrintable then checkNames [] (Scanner.start.tokensFrom 0 s) else [.failure .malformed]

end LayerLint.Yaml
