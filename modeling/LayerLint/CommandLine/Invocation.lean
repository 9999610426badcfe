import LayerLint.CommandLine.Option
import LayerLint.Disk.Access

/-!
# Commands

A command line names a command between options for the whole program and options of the command. Paths in options
have to exist and be of the right kind.
-/

namespace LayerLint.CommandLine

/-- The form of a report. -/
inductive Format where
  | rich
  | json
  | porcelain
deriving DecidableEq, Repr

namespace Format

/-- The word for a form. -/
def name : Format → String
  | .rich => "rich"
  | .json => "json"
  | .porcelain => "porcelain"

/-- The form that a word stands for. -/
def ofName? (word : String) : Option Format := [rich, json, porcelain].find? (·.name == word)

end Format

/-- The options of all commands together; each command knows some of them. -/
structure Options where
  help : Bool := false
  format : Option String := none
  strict : Bool := false
  exitZero : Bool := false
  detailed : Bool := false
  config : Option String := none
  noCoverage : Bool := false
  project : Option String := none
  preset : Option String := none
  createsDirectories : Bool := false
deriving DecidableEq, Repr

/-- The options of the whole program. -/
structure Globals where
  verbose : Bool := false
  quiet : Bool := false
  /-- The first of the options that ask for help or the version. -/
  asks : Option String := none
deriving DecidableEq, Repr

/-- The commands. -/
inductive CommandName where
  | lint
  | graph
  | init
  | refresh
  | presets
deriving DecidableEq, Repr

namespace CommandName

/-- The word for a command. -/
def name : CommandName → String
  | .lint => "lint"
  | .graph => "graph"
  | .init => "init"
  | .refresh => "refresh"
  | .presets => "presets"

/-- The command that a word stands for. -/
def ofName? (word : String) : Option CommandName := [lint, graph, init, refresh, presets].find? (·.name == word)

/-- The option for the project. -/
def projectOption : String × Effect Options := ("--project", .value fun value o => { o with project := some value })

/-- The option for a preset. -/
def presetOption : String × Effect Options := ("--preset", .value fun value o => { o with preset := some value })

/-- The option for symbols. -/
def detailedOption : String × Effect Options := ("--detailed", .flag fun o => { o with detailed := true })

/-- The options that a command knows. -/
def options (command : CommandName) : OptionTable Options :=
  ("--help", .flag fun o => { o with help := true }) ::
    match command with
    | .lint =>
      [("--format", .value fun value o => { o with format := some value }),
        ("--strict", .flag fun o => { o with strict := true }),
        ("--no-strict", .flag fun o => { o with strict := false }),
        ("--exit-zero", .flag fun o => { o with exitZero := true }), detailedOption,
        ("--config", .value fun value o => { o with config := some value }),
        ("--no-coverage", .flag fun o => { o with noCoverage := true }), projectOption]
    | .graph => [detailedOption, projectOption]
    | .init =>
      [presetOption, ("--create-dirs", .flag fun o => { o with createsDirectories := true }),
        ("--no-create-dirs", .flag fun o => { o with createsDirectories := false }), projectOption]
    | .refresh => [presetOption, projectOption]
    | .presets => []

end CommandName

/-- The options of the whole program by their names. -/
def globalOptions : OptionTable Globals :=
  let asks := fun (what : String) (g : Globals) => { g with asks := g.asks <|> some what }
  let verbose := Effect.flag fun (g : Globals) => { g with verbose := true }
  let quiet := Effect.flag fun (g : Globals) => { g with quiet := true }
  [("--verbose", verbose), ("-v", verbose), ("--quiet", quiet), ("-q", quiet), ("--version", .flag (asks "version")),
    ("--help", .flag (asks "help"))]

/-- What a command line asks for. -/
inductive Request where
  | help
  | version
  | command (globals : Globals) (name : CommandName) (options : Options) (format : Format)
      (config project : Option Location)
deriving DecidableEq, Repr

/-- What stands at a path, which is read as the system reads it: an empty path leads nowhere, and a slash at the end
asks for a directory. -/
def nodeAt? (disk : Disk) (path : String) : Option Node :=
  if path.isEmpty then none
  else
    match disk.find? { Location.parse path with parts := Disk.linkSegments path } with
    | .ok node => node
    | .error _ => none

/-- The location of the path of an option, which has to be of the right kind. -/
def locationOf (disk : Disk) (option : String) (accepts : Node → Bool) :
    Option String → Except UsageError (Option Location)
  | none => .ok none
  | some path =>
    if (nodeAt? disk path).any accepts then .ok (some (Location.parse path)) else .error (.invalidValue option path)

/-- The node is a directory. -/
def isDirectoryNode (node : Node) : Bool := node matches .directory

/-- The form of a report; without an option that for other programs. -/
def formatOf : Option String → Except UsageError Format
  | none => .ok .porcelain
  | some word =>
    match Format.ofName? word with
    | some format => .ok format
    | none => .error (.invalidValue "--format" word)

/-- What the words behind a command ask for. -/
def commandRequest (disk : Disk) (globals : Globals) (name : CommandName) (words : List String) :
    Except UsageError Request := do
  let parsed ← parseOptions name.options true {} words
  let options := parsed.settings
  if options.help then return .help
  let format ← formatOf options.format
  let config ← locationOf disk "--config" (!isDirectoryNode ·) options.config
  let project ← locationOf disk "--project" isDirectoryNode options.project
  match parsed.words with
  | [] => return .command globals name options format config project
  | word :: _ => throw (.unexpectedWord word)

/-- What a command line asks for. -/
def request (disk : Disk) (words : List String) : Except UsageError Request := do
  let parsed ← parseOptions globalOptions false {} words
  match parsed.settings.asks, parsed.words with
  | some "version", _ => return .version
  | some _, _ => return .help
  | none, [] => throw .missingCommand
  | none, word :: rest =>
    match CommandName.ofName? word with
    | some name => commandRequest disk parsed.settings name rest
    | none => throw (.unknownCommand word)

end LayerLint.CommandLine
