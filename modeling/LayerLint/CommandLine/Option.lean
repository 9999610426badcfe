import LayerLint.Text.Search

/-!
# Options of a command line

A word that begins with two hyphens is a long option, perhaps with a value behind an equals sign; one hyphen
begins a group of options of one letter. An option without value changes the settings at once, and an option with
a value takes the next word unless the value is given already. Two hyphens alone end the options.
-/

namespace LayerLint.CommandLine

/-- What an option does to settings. -/
inductive Effect (σ : Type) where
  | flag (apply : σ → σ)
  | value (apply : String → σ → σ)

/-- Options by their names, which include the hyphens. -/
abbrev OptionTable (σ : Type) := List (String × Effect σ)

/-- The words cannot be understood. -/
inductive UsageError where
  | unknownOption (name : String)
  | missingValue (name : String)
  | unexpectedValue (name : String)
  | missingCommand
  | unknownCommand (name : String)
  | unexpectedWord (word : String)
  | invalidValue (name value : String)
deriving DecidableEq, Repr

/-- The wording of the error. -/
def UsageError.message : UsageError → String
  | .unknownOption name => s!"No such option: {name}"
  | .missingValue name => s!"Option '{name}' requires an argument."
  | .unexpectedValue name => s!"Option '{name}' does not take a value."
  | .missingCommand => "Missing command."
  | .unknownCommand name => s!"No such command '{name}'."
  | .unexpectedWord word => s!"Got unexpected extra argument ({word})"
  | .invalidValue name value => s!"Invalid value for '{name}': '{value}'"

/-- What the options of a command line change: the settings, and the words that are no options. -/
structure Parsed (σ : Type) where
  settings : σ
  words : List String

variable {σ : Type}

/-- The name of a long option and the value behind its equals sign. -/
def splitLong (word : String) : String × Option String :=
  let name := word.toList.takeWhile (· != '=')
  let rest := word.toList.dropWhile (· != '=')
  (String.ofList name, if rest.isEmpty then none else some (String.ofList (rest.drop 1)))

/-- Applies a group of options of one letter, none of which takes a value. -/
def applyLetters (table : OptionTable σ) (settings : σ) : List Char → Except UsageError σ
  | [] => .ok settings
  | c :: rest =>
    let name := String.ofList ['-', c]
    match table.lookup name with
    | some (.flag apply) => applyLetters table (apply settings) rest
    | some (.value _) => .error (.missingValue name)
    | none => .error (.unknownOption name)

/-- Applies the options among words. Where words and options do not mix, the first word ends the options. -/
def parseOptions (table : OptionTable σ) (mixed : Bool) (settings : σ) : List String → Except UsageError (Parsed σ)
  | [] => .ok ⟨settings, []⟩
  | word :: rest =>
    if word == "--" then .ok ⟨settings, rest⟩
    else if Text.startsWith word "--" then
      let (name, given) := splitLong word
      match table.lookup name with
      | none => .error (.unknownOption name)
      | some (.flag apply) =>
        if given.isSome then .error (.unexpectedValue name) else parseOptions table mixed (apply settings) rest
      | some (.value apply) =>
        match given with
        | some value => parseOptions table mixed (apply value settings) rest
        | none =>
          match rest with
          | [] => .error (.missingValue name)
          | value :: rest => parseOptions table mixed (apply value settings) rest
    else if Text.startsWith word "-" && word != "-" then
      match applyLetters table settings (word.toList.drop 1) with
      | .ok settings => parseOptions table mixed settings rest
      | .error e => .error e
    else if mixed then
      (parseOptions table mixed settings rest).map fun parsed => { parsed with words := word :: parsed.words }
    else .ok ⟨settings, word :: rest⟩

end LayerLint.CommandLine
