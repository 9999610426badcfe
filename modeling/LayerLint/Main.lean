import LayerLint.CommandLine.Run
import LayerLint.Disk.Archive

/-!
# The program

The words of the command line say what to do. The standard input holds the project as an archive of the current
directory, with the output of its tests if coverage is to be measured. A command that changes files writes them as an
archive behind its own output.
-/

namespace LayerLint.Program

/-- All that a stream holds. -/
partial def readAll (stream : IO.FS.Stream) (read : ByteArray) : IO ByteArray := do
  let chunk ← stream.read 65536
  if chunk.isEmpty then return read else readAll stream (read ++ chunk)

/-- The surroundings of a command that an archive gives; without output of tests there is no program to run them. -/
def surroundings (entries : List Archive.Entry) (elapsed : Binary64) : CommandLine.Surroundings :=
  let outputs := Archive.testOutputs entries
  { disk := Archive.diskOf entries
    runner := if outputs.isEmpty then none else some fun package => .finished ((outputs.lookup package).getD "") "" 0
    elapsed }

/-- Prints what a command leaves behind. -/
def print (before : Disk) (outcome : CommandLine.Outcome) : IO UInt32 := do
  let failure := outcome.failure.toList.map CommandLine.Failure.message
  (← IO.getStderr).putStr (outcome.errors ++ CommandLine.printed failure)
  let output ← IO.getStdout
  output.putStr outcome.output
  let changed := (Archive.changes before outcome.disk).flatMap Archive.Entry.bytes
  output.write ⟨changed.toArray⟩
  output.flush
  return outcome.exitCode.toUInt32

/-- Runs the command that the words ask for on the archive in the standard input. -/
def run (words : List String) : IO UInt32 := do
  let start ← IO.monoMsNow
  let bytes ← readAll (← IO.getStdin) .empty
  match Archive.entries? bytes.toList with
  | none =>
    (← IO.getStderr).putStrLn "Error: the standard input is no archive"
    return 2
  | some entries =>
    let elapsed := Binary64.ofDecimal false ((← IO.monoMsNow) - start) (-3)
    let around := surroundings entries elapsed
    match CommandLine.request around.disk words with
    | .error cause =>
      (← IO.getStderr).putStr (CommandLine.printed (CommandLine.helpText.take 1 ++ ["", "Error: " ++ cause.message]))
      return 2
    | .ok request => print around.disk (CommandLine.run around request)

end LayerLint.Program

/-- The program. -/
def main (words : List String) : IO UInt32 := LayerLint.Program.run words
