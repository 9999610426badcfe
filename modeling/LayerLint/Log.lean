/-!
# The log

Messages about the progress of a run, with a level and the part of the program that they come from. A computation
with a log (`Logged`) keeps the messages that it wrote before an error.
-/

namespace LayerLint

/-- How important a message is. -/
inductive LogLevel where
  | debug
  | info
  | warning
  | error
deriving DecidableEq, Repr

namespace LogLevel

/-- The word for a level. -/
def name : LogLevel → String
  | .debug => "DEBUG"
  | .info => "INFO"
  | .warning => "WARNING"
  | .error => "ERROR"

/-- The rank of a level. -/
def rank : LogLevel → Nat
  | .debug => 0
  | .info => 1
  | .warning => 2
  | .error => 3

end LogLevel

/-- The part of the program that a message comes from. -/
inductive LogSource where
  | settings
  | scan
  | graph
  | coverage
  | structureRules
  | reachability
  | validation
  | linter
  | presets
deriving DecidableEq, Repr

/-- The name that the log shows for a part. -/
def LogSource.name : LogSource → String
  | .settings => "archlint.infrastructure.config"
  | .scan => "archlint.infrastructure.scanner"
  | .graph => "archlint.graph.builder"
  | .coverage => "archlint.infrastructure.coverage_runner"
  | .structureRules => "archlint.rules.structure"
  | .reachability => "archlint.rules.reachability"
  | .validation => "archlint.rules.validator"
  | .linter => "archlint.linter"
  | .presets => "archlint.onboarding.presets"

/-- A message of the log. -/
structure LogRecord where
  level : LogLevel
  source : LogSource
  message : String
deriving DecidableEq, Repr

namespace LogRecord

/-- The line of a message. -/
def line (record : LogRecord) : String := s!"{record.level.name} {record.source.name}: {record.message}"

/-- The message is at least of a level. -/
def isAtLeast (level : LogLevel) (record : LogRecord) : Bool := decide (level.rank ≤ record.level.rank)

end LogRecord

/-- What a computation wrote to the log, and its result. -/
structure Logged (ε α : Type) where
  log : List LogRecord
  result : Except ε α

namespace Logged

variable {ε α β : Type}

/-- A result without messages. -/
def ofExcept (result : Except ε α) : Logged ε α := ⟨[], result⟩

/-- One message. -/
def note (level : LogLevel) (source : LogSource) (message : String) : Logged ε Unit :=
  ⟨[⟨level, source, message⟩], .ok ()⟩

/-- Several messages. -/
def notes (records : List LogRecord) : Logged ε Unit := ⟨records, .ok ()⟩

/-- The computation followed by another unless it fails. -/
def andThen (first : Logged ε α) (next : α → Logged ε β) : Logged ε β :=
  match first.result with
  | .ok a =>
    let second := next a
    ⟨first.log ++ second.log, second.result⟩
  | .error e => ⟨first.log, .error e⟩

instance : Monad (Logged ε) where
  pure a := ⟨[], .ok a⟩
  bind := andThen

/-- The computation with another error. -/
def mapError {ε' : Type} (f : ε → ε') (x : Logged ε α) : Logged ε' α := ⟨x.log, x.result.mapError f⟩

end Logged

end LayerLint
