import LayerLint.Source.Token

/-!
# The header of a source file

A source file declares its package and then imports others. `header` finds both among the clauses of a file:
the runs of tokens between terminators that stand in no bracket. Only the clauses before the first other
declaration have to be well-formed.
-/

namespace LayerLint.Source

/-- An imported path and the name that the file gives it, if any. -/
structure ImportSpec where
  path : String
  name : Option String
deriving DecidableEq, Repr

/-- What a file declares at its head. -/
structure Header where
  package : String
  imports : List ImportSpec
deriving DecidableEq, Repr

/-- Why a file is refused. -/
inductive HeaderError where
  | missingPackage
  | syntaxError (line : Nat)
deriving DecidableEq, Repr

/-- The wording of the error. -/
def HeaderError.message : HeaderError → String
  | .missingPackage => "missing or malformed package clause"
  | .syntaxError line => s!"syntax error at line {line}"

/-- What a clause of a file is. -/
inductive Clause where
  | package (name : String)
  | imports (specs : List ImportSpec)
  /-- A malformed clause; a package clause with something behind it still names the package. -/
  | malformed (package : Option String) (line : Nat)
  | other
deriving DecidableEq, Repr

/-- How a token changes the depth of brackets. -/
def depthAfter (depth : Nat) : TokenKind → Nat
  | .mark text =>
    if text == "(" || text == "[" || text == "\x7b" then depth + 1
    else if text == ")" || text == "]" || text == "\x7d" then depth - 1
    else depth
  | _ => depth

/-- The clauses of a file: the runs of tokens between terminators outside of brackets. -/
def clauses (depth : Nat) (run : List Token) : List Token → List (List Token)
  | [] => if run.isEmpty then [] else [run]
  | token :: rest =>
    if token.kind = .terminator ∧ depth = 0 then
      if run.isEmpty then clauses 0 [] rest else run :: clauses 0 [] rest
    else clauses (depthAfter depth token.kind) (run ++ [token]) rest

/-- The word is an identifier. -/
def isIdentifier (word : String) : Bool := !keywords.contains word

/-- The text between the quotes of a literal. -/
def unquote (raw : String) : String := String.ofList (raw.toList.drop 1).dropLast

/-- Reads one import: a path, with a name, an underscore or a dot before it. -/
def importSpec? : List TokenKind → Option ImportSpec
  | [.string raw] => some ⟨unquote raw, none⟩
  | [.word name, .string raw] => if isIdentifier name then some ⟨unquote raw, some name⟩ else none
  | [.mark name, .string raw] => if name == "." then some ⟨unquote raw, some name⟩ else none
  | _ => none

/-- The runs between terminators, the last of which may be missing. -/
def specRuns (run : List TokenKind) : List TokenKind → List (List TokenKind)
  | [] => if run.isEmpty then [] else [run]
  | kind :: rest => if kind = .terminator then run :: specRuns [] rest else specRuns (run ++ [kind]) rest

/-- Reads what stands behind the word `import`: one import, or imports in parentheses. -/
def importSpecs? (kinds : List TokenKind) : Option (List ImportSpec) :=
  match kinds with
  | .mark "(" :: rest =>
    match rest.reverse with
    | .mark ")" :: inside => (specRuns [] inside.reverse).mapM importSpec?
    | _ => none
  | kinds => (importSpec? kinds).map ([·])

/-- The kinds of tokens that cannot begin a declaration or statement. -/
def beginsNothing : TokenKind → Bool
  | .illegal => true
  | .mark text => [")", "]", "\x7d", ",", ".", ":", "/", "%", "|", ">", "="].contains text
  | _ => false

/-- Two operands side by side, as in no statement. -/
def isOperandPair : TokenKind → TokenKind → Bool
  | .word a, .word b => isIdentifier a && isIdentifier b
  | .word a, .string _ => isIdentifier a
  | .word a, .literal => isIdentifier a
  | _, _ => false

/-- What the tokens of a clause declare. -/
def clause (run : List Token) : Clause :=
  match run with
  | [] => .other
  | first :: rest =>
    match first.kind, (rest.map (·.kind) : List TokenKind) with
    | .word "package", [.word name] => if isIdentifier name then .package name else .malformed none first.line
    | .word "package", .word name :: _ => .malformed (if isIdentifier name then some name else none) first.line
    | .word "package", _ => .malformed none first.line
    | .word "import", kinds =>
      match importSpecs? kinds with
      | some specs => .imports specs
      | none => .malformed none first.line
    | kind, next :: _ =>
      if beginsNothing kind || isOperandPair kind next then .malformed none first.line else .other
    | kind, [] => if beginsNothing kind then .malformed none first.line else .other

/-- The package that a clause names. -/
def Clause.package? : Clause → Option String
  | .package name => some name
  | .malformed name _ => name
  | _ => none

/-- The imports of a clause. -/
def Clause.specs : Clause → List ImportSpec
  | .imports specs => specs
  | _ => []

/-- The line of the first malformed clause before the first other declaration. -/
def firstMalformed? : List Clause → Option Nat
  | .malformed _ line :: _ => some line
  | .package _ :: rest | .imports _ :: rest => firstMalformed? rest
  | .other :: _ | [] => none

/-- The header of the tokens of a file. -/
def header (tokens : List Token) : Except HeaderError Header :=
  let parts := (clauses 0 [] tokens).map clause
  match parts.findSome? (·.package?) with
  | none => .error .missingPackage
  | some package =>
    match firstMalformed? parts with
    | some line => .error (.syntaxError line)
    | none => .ok ⟨package, parts.flatMap (·.specs)⟩

end LayerLint.Source
