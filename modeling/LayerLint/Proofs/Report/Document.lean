import LayerLint.Proofs.Json.Rendering
import LayerLint.Proofs.Report.Kinds
import LayerLint.Report.Json
import Mathlib.Data.List.Forall2

/-!
# The report as a document

The report for other programs as a JSON document says all there is to say about a run: its text is a document of one
value (`isDocument_json_iff`), with an entry for every violation (`describes_violationJson`) and a summary
(`summarizes_summaryJson`). An entry describes one violation only (`Describes.told_eq`), so everything about the run can
be read back from the text (`json_decodes`).
-/

namespace LayerLint

/-- The values of the fields of an object with a name. -/
def Json.named (name : String) : Json → List Json
  | .object fields => (fields.filter (·.1 == name)).map (·.2)
  | _ => []

namespace Report

/-- An entry tells a violation: its kind by both names, where it is, and all texts about it. A line that is not positive
is none. -/
structure Describes (violation : Violation) (entry : Json) : Prop where
  kind : ∃ code title, Names violation.kind code title ∧ entry.named "kind" = [.string code] ∧
    entry.named "label" = [.string title]
  file : entry.named "file" = [.string violation.file]
  line : entry.named "line" = [if 0 < violation.line then .int violation.line else .null]
  issue : entry.named "issue" = [.string violation.issue]
  rule : entry.named "rule" = [.string violation.rule]
  fix : entry.named "fix" = [.string violation.fix]

/-- A summary tells the counts of a run, its time and whether it fails, its preset if that has a name, and the mean
coverage if that was measured. -/
structure Summarizes (outcome : Outcome) (summary : Json) : Prop where
  rulesEvaluated : summary.named "rules_evaluated" = [.int outcome.rulesEvaluated]
  violationsCount : summary.named "violations_count" = [.int outcome.violations.length]
  filesScanned : summary.named "files_scanned" = [.int outcome.filesScanned]
  elapsed : summary.named "elapsed_ms" = [.number outcome.elapsed]
  failed : summary.named "failed" = [.bool outcome.shouldFail]
  preset : summary.named "preset" = (outcome.preset.toList.filter (· ≠ "")).map .string
  overallCoverage : summary.named "overall_coverage" = outcome.overallCoverage.toList.map .number

/-- A violation as an entry tells it. -/
def told (violation : Violation) : Violation := { violation with line := max 0 violation.line }

variable {outcome : Outcome}

theorem describes_violationJson (outcome : Outcome) (violation : Violation) :
    Describes violation (violationJson outcome violation) where
  kind := ⟨_, _, names_self violation.kind, rfl, rfl⟩
  file := rfl
  line := rfl
  issue := rfl
  rule := rfl
  fix := rfl

/-- **An entry describes one violation only**, up to a line that is not positive. -/
theorem Describes.told_eq {violation other : Violation} {entry : Json} (h : Describes violation entry)
    (h' : Describes other entry) : told violation = told other := by
  have htext : ∀ {name s t}, entry.named name = [.string s] → entry.named name = [.string t] → s = t := by
    intro name s t hs ht
    simpa using hs.symm.trans ht
  have hline : max 0 violation.line = max 0 other.line := by
    have hshown := h.line.symm.trans h'.line
    split at hshown <;> split at hshown <;> simp at hshown <;> omega
  obtain ⟨code, title, hnames, hcode, -⟩ := h.kind
  obtain ⟨code', title', hnames', hcode', -⟩ := h'.kind
  rw [told, told, hline, hnames.kind_eq hnames' (.inl (htext hcode hcode')), htext h.file h'.file,
    htext h.issue h'.issue, htext h.rule h'.rule, htext h.fix h'.fix]

theorem summarizes_summaryJson (outcome : Outcome) : Summarizes outcome (summaryJson outcome) := by
  obtain ⟨_, _, _, _, _, _, preset, _, _, coverage⟩ := outcome
  rcases preset with _ | name
  · cases coverage <;> constructor <;> rfl
  · by_cases hname : name = ""
    · subst hname
      cases coverage <;> constructor <;> rfl
    · have hempty : name.isEmpty = false := by simpa using hname
      cases coverage <;> constructor <;> simp [summaryJson, Json.named, hempty, hname]

theorem map_told_eq {violations others : List Violation} {entries : List Json}
    (h : List.Forall₂ Describes violations entries) (h' : List.Forall₂ Describes others entries) :
    violations.map told = others.map told := by
  induction h generalizing others with
  | nil =>
    cases h'
    rfl
  | cons hfirst _ ih =>
    obtain _ | ⟨hfirst', hrest'⟩ := h'
    exact congrArg₂ List.cons (hfirst.told_eq hfirst') (ih hrest')

/-! ## The text of the document -/

theorem isFinite_violationJson (outcome : Outcome) (violation : Violation) :
    (violationJson outcome violation).IsFinite := by
  rw [violationJson]
  refine .object ?_
  simp only [List.forall_mem_cons, List.not_mem_nil, false_implies, implies_true, and_true]
  refine ⟨.string _, .string _, .string _, ?_, .string _, .string _, .string _, .string _⟩
  split
  · exact .int _
  · exact .null

theorem isFinite_toJson (helapsed : outcome.elapsed.IsNumber)
    (hcoverage : ∀ percent ∈ outcome.overallCoverage, percent.IsNumber) : (toJson outcome).IsFinite := by
  have hsummary : (summaryJson outcome).IsFinite := by
    rw [summaryJson]
    refine .object ?_
    simp only [List.forall_mem_append, List.forall_mem_cons, List.not_mem_nil, false_implies, implies_true, and_true]
    refine ⟨⟨⟨.int _, .int _, .int _, .number helapsed, .bool _⟩, ?_⟩, ?_⟩
    · split
      · split
        · simp
        · simpa using .string _
      · simp
    · split
      · rename_i percent hpercent
        simpa using .number (hcoverage percent hpercent)
      · simp
  have hviolations : (Json.array (outcome.violations.map (violationJson outcome))).IsFinite := by
    refine .array fun item hitem => ?_
    obtain ⟨violation, -, rfl⟩ := List.mem_map.mp hitem
    exact isFinite_violationJson outcome violation
  rw [toJson]
  refine .object ?_
  simpa using ⟨hviolations, hsummary⟩

/-- **The report is a document of one value.** -/
theorem isDocument_json_iff (helapsed : outcome.elapsed.IsNumber)
    (hcoverage : ∀ percent ∈ outcome.overallCoverage, percent.IsNumber) (document : Json) :
    Json.IsDocument (json outcome) document ↔ document = toJson outcome := by
  have hdocument : Json.IsDocument (json outcome) (toJson outcome) :=
    Json.isDocument_toText (isFinite_toJson helapsed hcoverage)
  constructor
  · exact fun hother => hother.unique hdocument
  · rintro rfl
    exact hdocument

/-- **The report loses nothing.** Where the time and the coverage are finite, its text is a JSON document of one value.
This has an entry for every violation, in their order and with all their texts, that describes no other, and a summary
with the counts, the time and the coverage. -/
theorem json_decodes (helapsed : outcome.elapsed.IsNumber)
    (hcoverage : ∀ percent ∈ outcome.overallCoverage, percent.IsNumber) :
    ∃ document, (∀ other, Json.IsDocument (json outcome) other ↔ other = document) ∧
      (∃ entries, document.named "violations" = [.array entries] ∧
        List.Forall₂ Describes outcome.violations entries ∧
        ∀ others, List.Forall₂ Describes others entries → others.map told = outcome.violations.map told) ∧
      ∃ summary, document.named "summary" = [summary] ∧ Summarizes outcome summary := by
  have hdescribes : List.Forall₂ Describes outcome.violations
      (outcome.violations.map (violationJson outcome)) := by
    rw [List.forall₂_map_right_iff, List.forall₂_same]
    exact fun violation _ => describes_violationJson outcome violation
  refine ⟨toJson outcome, isDocument_json_iff helapsed hcoverage, ⟨_, rfl, hdescribes, fun others hothers => ?_⟩, _,
    rfl, summarizes_summaryJson outcome⟩
  exact map_told_eq hothers hdescribes

/-- Violations with characters that do not stand for themselves in a document. -/
def escapedOutcome : Outcome where
  violations :=
    [⟨.forbiddenImport, "pkg/a\\b/\"𝄞\".go", "imports \x01\t\u0085", "", "", 7⟩,
      ⟨.unusedPackage, "pkg/\u2028", "é", "r", "f", 0⟩]
  elapsed := .finite false 7036874417766400 (-49)
  preset := some "simple"
  overallCoverage := some (.finite false 5277655813324800 (-46))

theorem json_decodes_escaped : ∃ document first second summary,
    Json.IsDocument (json escapedOutcome) document ∧ document.named "violations" = [.array [first, second]] ∧
      first.named "file" = [.string "pkg/a\\b/\"𝄞\".go"] ∧ second.named "line" = [.null] ∧
      document.named "summary" = [summary] ∧ summary.named "preset" = [.string "simple"] := by
  have helapsed : escapedOutcome.elapsed.IsNumber := ⟨by decide, by decide, by decide, .inl (by decide)⟩
  have hcoverage : ∀ percent ∈ escapedOutcome.overallCoverage, percent.IsNumber := by
    rintro _ ⟨⟩
    exact ⟨by decide, by decide, by decide, .inl (by decide)⟩
  obtain ⟨document, hdocument, ⟨entries, hentries, hviolations, -⟩, summary, hsummary, htells⟩ :=
    json_decodes helapsed hcoverage
  obtain _ | ⟨hfirst, _ | ⟨hsecond, _ | _⟩⟩ := hviolations
  exact ⟨document, _, _, summary, (hdocument document).mpr rfl, hentries, hfirst.file, hsecond.line, hsummary,
    htells.preset⟩

end Report

end LayerLint
