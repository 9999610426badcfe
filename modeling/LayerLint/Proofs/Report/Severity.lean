import LayerLint.Proofs.Lint.Stopping
import LayerLint.Proofs.Report.Kinds
import LayerLint.Proofs.Text.Search
import Mathlib.Data.List.Forall2

/-!
# What fails a run, in every output

A violation is a warning or an error (`Outcome.severity`). All outputs of a run go by that: the JSON document gives each
violation its severity (`severity_violationJson`), the report for people gives it a mark (`shows_violationLines`) and
counts the warnings in its last line (`isReportOf_rich`), and the exit code of the command is 1 just where an error
is among the violations, or with the strict option any violation (`exitCode_eq_one_iff`). So they never disagree
(`outputs_agree`).
-/

namespace LayerLint

/-! ## Severities -/

/-- How grave a violation is. -/
inductive Severity where
  | warning
  | error
deriving DecidableEq, Repr

namespace Severity

/-- The word for a severity in a document. -/
def word : Severity → String
  | .warning => "warning"
  | .error => "error"

/-- The mark of a severity in a report for people. -/
def mark : Severity → String
  | .warning => "⚠"
  | .error => "✗"

end Severity

/-- Shared third-party imports are warnings unless they are to be errors; all other violations are errors. -/
def Outcome.severity (outcome : Outcome) (violation : Violation) : Severity :=
  if violation.kind = .sharedExternalImport ∧ outcome.sharedImportsMode ≠ .error then .warning else .error

variable {outcome : Outcome} {violation : Violation}

theorem Outcome.isWarning_eq (outcome : Outcome) (violation : Violation) :
    outcome.isWarning violation = decide (outcome.severity violation = .warning) := by
  rw [Bool.eq_iff_iff, decide_eq_true_eq, Outcome.isWarning, Outcome.severity]
  split <;> simp_all

theorem Outcome.shouldFail_iff_error :
    outcome.shouldFail = true ↔ ∃ v ∈ outcome.violations, outcome.severity v = .error := by
  have hsplit : ∀ severity : Severity, ¬ severity = .warning ↔ severity = .error := by
    intro severity
    cases severity <;> simp
  simp only [Outcome.shouldFail_iff, Outcome.isWarning_eq, decide_eq_false_iff_not, hsplit]

/-! ## The JSON document -/

/-- The value of a field of an object. -/
def Json.field? (name : String) : Json → Option Json
  | .object fields => fields.lookup name
  | _ => none

namespace Report

/-- An entry of the document is about a violation and gives its severity. -/
structure IsEntryOf (outcome : Outcome) (violation : Violation) (entry : Json) : Prop where
  kind : ∃ code title, Names violation.kind code title ∧ entry.field? "kind" = some (.string code)
  file : entry.field? "file" = some (.string violation.file)
  issue : entry.field? "issue" = some (.string violation.issue)
  severity : entry.field? "severity" = some (.string (outcome.severity violation).word)

theorem severity_violationJson (outcome : Outcome) (violation : Violation) :
    IsEntryOf outcome violation (violationJson outcome violation) := by
  refine ⟨⟨_, _, names_self violation.kind, rfl⟩, rfl, rfl, ?_⟩
  have hword : (if outcome.isWarning violation then "warning" else "error") =
      (outcome.severity violation).word := by
    rw [outcome.isWarning_eq]
    cases outcome.severity violation <;> rfl
  rw [← hword]
  rfl

/-- The summary of a document says whether the run fails. -/
theorem failed_summaryJson (outcome : Outcome) :
    (summaryJson outcome).field? "failed" = some (.bool outcome.shouldFail) := rfl

/-- A document has an entry for each violation, in their order, with its severity, and its summary says whether the run
fails. -/
structure IsDocumentOf (outcome : Outcome) (document : Json) : Prop where
  entries : ∃ entries, document.field? "violations" = some (.array entries) ∧
    List.Forall₂ (IsEntryOf outcome) outcome.violations entries
  failed : (document.field? "summary").bind (·.field? "failed") = some (.bool outcome.shouldFail)

theorem isDocumentOf_toJson (outcome : Outcome) : IsDocumentOf outcome (toJson outcome) := by
  refine ⟨⟨outcome.violations.map (violationJson outcome), rfl, ?_⟩, failed_summaryJson outcome⟩
  rw [List.forall₂_map_right_iff, List.forall₂_same]
  exact fun violation _ => severity_violationJson outcome violation

/-! ## The report for people -/

/-- A line that carries no mark: it is empty or indented. -/
def IsUnmarked (line : String) : Prop := line = "" ∨ Text.startsWith line "  " = true

/-- Lines show a violation: the first has its mark and the title of its kind, and no other has a mark. -/
structure Shows (outcome : Outcome) (violation : Violation) (lines : List String) : Prop where
  first : ∃ code title, Names violation.kind code title ∧
    lines.head? = some ((outcome.severity violation).mark ++ " " ++ title)
  others : ∀ line ∈ lines.tail, IsUnmarked line

theorem marker_eq (outcome : Outcome) (violation : Violation) :
    marker outcome violation = (outcome.severity violation).mark := by
  rw [marker, outcome.isWarning_eq]
  cases outcome.severity violation <;> rfl

/-- A text behind an indented word is indented. -/
theorem isUnmarked_append {lead : String} (h : Text.startsWith lead "  " = true) (rest : String) :
    IsUnmarked (lead ++ rest) := by
  refine .inr (Text.startsWith_iff.mpr ((Text.startsWith_iff.mp h).trans ?_))
  rw [String.toList_append]
  exact List.prefix_append _ _

theorem isUnmarked_of_mem_fixLines {fix line : String} (h : line ∈ fixLines fix) : IsUnmarked line := by
  unfold fixLines at h
  split at h
  · rw [List.mem_singleton.mp h]
    exact .inr (by decide)
  · rcases List.mem_cons.mp h with rfl | h
    · exact isUnmarked_append (by decide) _
    · obtain ⟨more, -, rfl⟩ := List.mem_map.mp h
      exact isUnmarked_append (by decide) _

/-- **A violation is shown with the mark of its severity.** -/
theorem shows_violationLines (outcome : Outcome) (violation : Violation) :
    Shows outcome violation (violationLines outcome violation) := by
  refine ⟨⟨_, _, names_self violation.kind, ?_⟩, fun line hline => ?_⟩
  · rw [← marker_eq]
    rfl
  · have htail : (violationLines outcome violation).tail =
        (if violation.file.isEmpty then [] else ["  File: " ++ place violation]) ++
          ["  Issue: " ++ violation.issue, "  Rule: " ++ violation.rule] ++ fixLines violation.fix ++ [""] := rfl
    rw [htail, List.mem_append, List.mem_append, List.mem_append] at hline
    rcases hline with ((hfile | htexts) | hfix) | hend
    · split at hfile
      · cases hfile
      · rw [List.mem_singleton.mp hfile]
        exact isUnmarked_append (by decide) _
    · rcases List.mem_cons.mp htexts with rfl | htexts
      · exact isUnmarked_append (by decide) _
      · rw [List.mem_singleton.mp htexts]
        exact isUnmarked_append (by decide) _
    · exact isUnmarked_of_mem_fixLines hfix
    · exact .inl (List.mem_singleton.mp hend)

/-- The last line of a report on that many violations and that many warnings among them. -/
def totalLine (violations warnings : Nat) : String :=
  toString violations ++ (if violations = 1 then " violation" else " violations") ++ " found" ++
    if warnings = 0 then "" else ", " ++ toString warnings ++ " as warnings"

/-- The number of warnings of a run. -/
def warningCount (outcome : Outcome) : Nat := outcome.violations.countP fun v => outcome.severity v = .warning

theorem total_eq (outcome : Outcome) : total outcome = totalLine outcome.violations.length (warningCount outcome) := by
  have hcount : outcome.violations.countP outcome.isWarning = warningCount outcome :=
    List.countP_congr fun v _ => by rw [outcome.isWarning_eq]
  unfold total
  dsimp only
  rw [hcount]
  rfl

/-- The lines of a report before its violations. -/
def opening (outcome : Outcome) : List String :=
  header outcome ++ if outcome.errorPrompt.enabled then preamble outcome.errorPrompt outcome.preset else []

/-- The lines of a report between its violations and its last line. -/
def closing (outcome : Outcome) : List String :=
  if outcome.errorPrompt.enabled then guidance outcome.violations outcome.errorPrompt else []

/-- A report for people shows each violation, in their order, and counts them and the warnings among them in its last
line; without violations it says so. -/
structure IsReportOf (outcome : Outcome) (report : String) : Prop where
  clean : outcome.violations = [] →
    report = Text.join "\n" (header outcome ++ ["✓ No violations found " ++ statistics outcome])
  shown : outcome.violations ≠ [] → ∃ blocks : List (List String),
    List.Forall₂ (Shows outcome) outcome.violations blocks ∧
      report = Text.join "\n" (opening outcome ++ blocks.flatten ++ closing outcome ++
        [totalLine outcome.violations.length (warningCount outcome) ++ " " ++ statistics outcome])

theorem isReportOf_rich (outcome : Outcome) : IsReportOf outcome (rich outcome) := by
  constructor
  · intro hnone
    rw [rich, if_pos (by rw [hnone]; rfl)]
  · intro hsome
    refine ⟨outcome.violations.map (violationLines outcome), ?_, ?_⟩
    · rw [List.forall₂_map_right_iff, List.forall₂_same]
      exact fun violation _ => shows_violationLines outcome violation
    · rw [rich, if_neg (by simpa using hsome), total_eq, List.flatMap_def]
      simp only [opening, closing, List.append_assoc]

end Report

/-! ## The exit code -/

namespace CommandLine

/-- **A run fails the command** where it is to fail, or where the command is strict and there is any violation. -/
theorem exitCode_eq_one_iff (outcome : LayerLint.Outcome) {options : Options} (hzero : options.exitZero = false) :
    exitCode options outcome = 1 ↔
      outcome.shouldFail = true ∨ options.strict = true ∧ outcome.violations ≠ [] := by
  rw [exitCode, if_neg (by simp [hzero])]
  split
  · rename_i hfail
    rw [Bool.or_eq_true, Bool.and_eq_true] at hfail
    simpa [or_comm] using hfail
  · rename_i hfail
    rw [Bool.or_eq_true, Bool.and_eq_true] at hfail
    simpa [or_comm] using hfail

/-- A run that fails has violations. -/
theorem violations_ne_nil_of_shouldFail {outcome : LayerLint.Outcome} (h : outcome.shouldFail = true) :
    outcome.violations ≠ [] := by
  obtain ⟨v, hv, -⟩ := Outcome.shouldFail_iff_error.mp h
  exact List.ne_nil_of_mem hv

/-- The strict option fails no fewer runs. -/
theorem exitCode_strict {outcome : LayerLint.Outcome} {options : Options}
    (h : exitCode { options with strict := true } outcome = 0) :
    exitCode { options with strict := false } outcome = 0 := by
  unfold exitCode at *
  dsimp only at *
  split
  · rfl
  · rename_i hzero
    rw [if_neg hzero, Bool.true_and] at h
    split at h
    · cases h
    · rename_i hnot
      rw [Bool.or_eq_true, not_or] at hnot
      rw [Bool.false_and, Bool.false_or, if_neg hnot.2]

/-- **All outputs of a run agree on what fails.** The run fails where one of its violations is an error. The JSON
document and the report for people give each violation its severity, count them, and say whether the run fails. The
command ends with 1 just where the run fails, or with the strict option where there is any violation, so that this
option passes no run that fails without it. -/
theorem outputs_agree (outcome : LayerLint.Outcome) :
    (outcome.shouldFail = true ↔ ∃ v ∈ outcome.violations, outcome.severity v = .error) ∧
      (∃ document, Report.json outcome = document.toText ∧ Report.IsDocumentOf outcome document) ∧
      Report.IsReportOf outcome (Report.rich outcome) ∧
      ∀ (around : Surroundings) (globals : Globals) (options : Options) (format : Format)
          (config project : Option Location) (graph : Graph),
        let root := project.getD ⟨true, around.disk.current⟩
        let code := fun options => (run around (.command globals .lint options format config project)).exitCode
        (lint (linterSurroundings around root) (linterOptions options config)).result = .ok (graph, outcome) →
          (options.exitZero = false →
            (code options = 1 ↔ outcome.shouldFail = true ∨ options.strict = true ∧ outcome.violations ≠ []) ∧
              (code { options with strict := true } = 1 ↔ outcome.violations ≠ [])) ∧
            (code { options with strict := true } = 0 → code { options with strict := false } = 0) := by
  refine ⟨Outcome.shouldFail_iff_error, ⟨_, rfl, Report.isDocumentOf_toJson outcome⟩,
    Report.isReportOf_rich outcome, ?_⟩
  intro around globals options format config project graph root code hrun
  -- the run does not depend on the options for the exit code
  have hcode : ∀ strict, code { options with strict } = exitCode { options with strict } outcome :=
    fun strict => runLint_of_ok hrun
  have hsame : code options = exitCode options outcome := runLint_of_ok hrun
  refine ⟨fun hzero => ⟨?_, ?_⟩, ?_⟩
  · rw [hsame, exitCode_eq_one_iff outcome hzero]
  · have hstrict : { options with strict := true }.exitZero = false := hzero
    rw [hcode, exitCode_eq_one_iff outcome hstrict]
    constructor
    · rintro (hfail | ⟨-, hsome⟩)
      · exact violations_ne_nil_of_shouldFail hfail
      · exact hsome
    · exact fun hsome => .inr ⟨rfl, hsome⟩
  · rw [hcode, hcode]
    exact exitCode_strict

/-- A project with an import that its configuration does not allow. -/
def trespassingSurroundings : Surroundings :=
  { disk :=
      { nodes :=
          [(["go.mod"], .file "module m\n".toUTF8),
            ([".archlint.yml"], .file "rules: {directories_import: {pkg: []}}\n".toUTF8),
            (["pkg"], .directory), (["pkg", "a.go"], .file "package pkg\n\nimport \"m/cmd\"\n".toUTF8)]
        current := [] }
    runner := none
    elapsed := Binary64.zero false }

theorem outputs_agree_trespassing : ∃ graph outcome,
    (lint (linterSurroundings trespassingSurroundings ⟨true, []⟩) (linterOptions {} none)).result =
        .ok (graph, outcome) ∧
      outcome.shouldFail = true ∧
      (run trespassingSurroundings (.command {} .lint {} .rich none none)).exitCode = 1 := by
  obtain ⟨⟨graph, outcome⟩, hresult, hfails⟩ := Result.exists_of_any
    (lint (linterSurroundings trespassingSurroundings ⟨true, []⟩) (linterOptions {} none)).result
    (fun result => result.2.shouldFail) (by decide +kernel)
  have hcodes := (outputs_agree outcome).2.2.2 trespassingSurroundings {} {} .rich none none graph hresult
  exact ⟨graph, outcome, hresult, hfails, (hcodes.1 rfl).1.mpr (.inl hfails)⟩

end CommandLine

end LayerLint
