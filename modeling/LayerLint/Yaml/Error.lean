import LayerLint.Yaml.Date
import LayerLint.Text.Digit
import LayerLint.Text.Quoted

/-!
# Why a YAML document cannot be read

A document that breaks the rules of the language is malformed. A scalar whose form promises a value that does
not exist, such as a month 13, is an error of its own.
-/

namespace LayerLint.Yaml

/-- Why a document cannot be read. -/
inductive ReadError where
  | malformed
  /-- The text is no whole number in the base. -/
  | invalidInt (base : Nat) (text : String)
  /-- A whole number in base ten has more digits than are read. -/
  | tooManyDigits (count : Nat)
  /-- The text is no number. -/
  | invalidFloat (text : String)
  /-- A floating-point number has a group of sixties that is worth more than all floating-point numbers. -/
  | hugeSixties
  | invalidDate (cause : DateError)
  /-- An escape names a code point beyond the last. -/
  | invalidCode
  /-- An escape names a number that is no code point of any size. -/
  | hugeCode
  /-- A word is marked as a truth value and is none. -/
  | unknownTruthWord (word : String)
  /-- An empty text is marked as a number. -/
  | emptyNumber
  /-- A text is marked as a time and is none. -/
  | noTimestamp
  /-- A map has the role of a scalar, and the way to its text leads back to it. -/
  | endless
deriving DecidableEq, Repr

/-- The text is at fault: it stands for no value, or it is malformed. -/
def ReadError.isValueError : ReadError → Bool
  | .hugeSixties | .hugeCode | .unknownTruthWord _ | .emptyNumber | .noTimestamp | .endless => false
  | _ => true

/-- The wording of the error. -/
def ReadError.message : ReadError → String
  | .malformed => "invalid YAML (the text breaks the rules of the language)"
  | .invalidInt base text =>
    s!"invalid literal for int() with base {base}: " ++ String.ofList ((Text.quoted text).toList.take 200)
  | .tooManyDigits count => Text.digitsMessage s!": value has {count} digits"
  | .invalidFloat text => "could not convert string to float: " ++ Text.quoted text
  | .hugeSixties => "int too large to convert to float"
  | .invalidDate cause => cause.message
  | .invalidCode => "chr() arg not in range(0x110000)"
  | .hugeCode => "an escape names a number that is no code point of any size"
  | .unknownTruthWord word => Text.quoted word ++ " is no truth value"
  | .emptyNumber => "an empty text is no number"
  | .noTimestamp => "the text is no time"
  | .endless => "the way to the text of a map leads back to it"

end LayerLint.Yaml
