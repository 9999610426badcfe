import LayerLint.Proofs.Report.Kinds
import LayerLint.Proofs.Text.Lines
import LayerLint.Report.Porcelain
import Mathlib.Algebra.Order.BigOperators.Group.List
import Mathlib.Tactic.TFAE

/-!
# Records of violations

The report for other programs has a record for each violation: its kind, its file, its line and the first line of its
issue (`porcelainLine_eq_record`, `isRecord_iff`). A record ends in no end of a line, so the lines of the report are
those of the records (`lines_porcelain`). A record stands on one line just where its file holds no end of a line
(`lines_record`, `hasPlainFile_of_length`): where every file is such, and only there, the report has one line for each
violation (`records_are_lines_tfae`).
-/

namespace LayerLint.Report

open Text (isLineBreak lines)

/-- The record of a violation: its kind, its file, the number of its line if that is positive, and its issue up to the
first end of a line, with colons between them. -/
def record (violation : Violation) : String :=
  violation.kind.code ++ ":" ++ violation.file ++ ":" ++
    (if 0 < violation.line then toString violation.line else "") ++ ":" ++
    String.ofList (violation.issue.toList.takeWhile (!isLineBreak ·))

/-- A line is the record of a violation, with the code that its kind has in reports for programs. -/
def IsRecord (violation : Violation) (line : String) : Prop :=
  ∃ code title, Names violation.kind code title ∧ line = code ++ ":" ++ violation.file ++ ":" ++
    (if 0 < violation.line then toString violation.line else "") ++ ":" ++
    String.ofList (violation.issue.toList.takeWhile (!isLineBreak ·))

/-- The file of a violation is named on one line. -/
def HasPlainFile (violation : Violation) : Prop := ∀ c ∈ violation.file.toList, isLineBreak c = false

variable {violation : Violation}

theorem porcelainLine_eq_record (violation : Violation) : porcelainLine violation = record violation := by
  rw [porcelainLine, record, Text.firstLine, Text.headD_lines, Text.join_cons_cons, Text.join_cons_cons,
    Text.join_cons_cons, lineNumber]
  simp only [Text.join, String.intercalate_singleton, String.append_assoc]

theorem isRecord_iff {line : String} : IsRecord violation line ↔ line = record violation := by
  constructor
  · rintro ⟨code, title, hnames, rfl⟩
    rw [(names_iff.mp hnames).1, record]
  · rintro rfl
    exact ⟨_, _, names_self violation.kind, rfl⟩

/-- The records of violations are one for each of them. -/
theorem forall₂_isRecord_iff {violations : List Violation} {records : List String} :
    List.Forall₂ IsRecord violations records ↔ records = violations.map record := by
  induction violations generalizing records with
  | nil => simp
  | cons violation rest ih => cases records <;> simp [isRecord_iff, ih]

/-! ## The lines of a record -/

theorem isLineBreak_of_mem_code (kind : ViolationKind) : ∀ c ∈ kind.code.toList, isLineBreak c = false := by
  have hall : kind.code.toList.all (!isLineBreak ·) = true := by cases kind <;> decide
  simpa using hall

theorem isLineBreak_of_isDigit {c : Char} (h : c.isDigit) : isLineBreak c = false := by
  rw [isLineBreak, decide_eq_false_iff_not]
  intro hbreak
  have hdigits : ['\n', '\r', '\x0b', '\x0c', '\x1c', '\x1d', '\x1e', '\u0085', '\u2028', '\u2029'].all
      (!Char.isDigit ·) = true := by decide
  simpa [h] using List.all_eq_true.mp hdigits c hbreak

theorem isLineBreak_of_mem_number (line : Int) :
    ∀ c ∈ (if 0 < line then toString line else "").toList, isLineBreak c = false := by
  intro c hc
  split at hc
  · rename_i hpositive
    obtain ⟨n, rfl⟩ := Int.eq_ofNat_of_zero_le hpositive.le
    rw [show toString (n : Int) = n.repr from rfl, Nat.toList_repr] at hc
    exact isLineBreak_of_isDigit (Nat.isDigit_of_mem_toDigits (by decide) (by decide) hc)
  · cases hc

theorem isLineBreak_of_mem_takeWhile {s : List Char} {c : Char} (h : c ∈ s.takeWhile (!isLineBreak ·)) :
    isLineBreak c = false := by
  simpa using List.mem_takeWhile_imp h

theorem record_ne_nil (violation : Violation) : (record violation).toList ≠ [] := by simp [record]

/-- A record does not end in an end of a line. -/
theorem getLast?_record (violation : Violation) : ∀ c ∈ (record violation).toList.getLast?, isLineBreak c = false := by
  intro c hc
  rw [record, String.toList_append, String.toList_ofList, String.toList_append, List.append_assoc,
    show ":".toList = [':'] from rfl, List.singleton_append, List.getLast?_append_of_ne_nil _ (by simp)] at hc
  rcases List.mem_cons.mp (List.mem_of_getLast? hc) with rfl | hc
  · decide
  · exact isLineBreak_of_mem_takeWhile hc

/-- A record is one line where the file is named on one line. -/
theorem lines_record (h : HasPlainFile violation) : lines (record violation).toList = [(record violation).toList] := by
  refine Text.lines_of_forall (record_ne_nil violation) fun c hc => ?_
  simp only [record, String.toList_append, String.toList_ofList, List.mem_append,
    show ":".toList = [':'] from rfl, List.mem_singleton] at hc
  rcases hc with (((((hcode | rfl) | hfile) | rfl) | hnumber) | rfl) | hissue
  · exact isLineBreak_of_mem_code _ c hcode
  · decide
  · exact h c hfile
  · decide
  · exact isLineBreak_of_mem_number _ c hnumber
  · decide
  · exact isLineBreak_of_mem_takeWhile hissue

/-- Only there it is one line. -/
theorem hasPlainFile_of_length (h : (lines (record violation).toList).length ≤ 1) : HasPlainFile violation := by
  intro c hc
  refine Text.isLineBreak_of_length_lines (getLast?_record violation) h ?_
  simp only [record, String.toList_append, List.mem_append]
  exact .inl (.inl (.inl (.inl (.inr hc))))

/-! ## The lines of the report -/

/-- The lines of the report are those of the records. -/
theorem lines_porcelain (outcome : Outcome) : lines (porcelain outcome).toList =
    outcome.violations.flatMap fun violation => lines (record violation).toList := by
  rw [porcelain, Text.lines_join, List.flatMap_map]
  · simp only [porcelainLine_eq_record]
  · intro part hpart
    obtain ⟨violation, -, rfl⟩ := List.mem_map.mp hpart
    rw [porcelainLine_eq_record]
    exact ⟨record_ne_nil violation, getLast?_record violation⟩

/-- A violation whose file is named on several lines makes the report longer. -/
theorem length_lt_length_lines {outcome : Outcome} (h : violation ∈ outcome.violations)
    (hfile : ¬ HasPlainFile violation) :
    outcome.violations.length < (lines (porcelain outcome).toList).length := by
  have hone : ∀ v ∈ outcome.violations, 1 ≤ (lines (record v).toList).length := fun v _ =>
    List.length_pos_of_ne_nil (Text.lines_ne_nil (record_ne_nil v))
  have hmore : 1 < (lines (record violation).toList).length := not_le.mp (mt hasPlainFile_of_length hfile)
  calc outcome.violations.length = (outcome.violations.map fun _ => 1).sum := by simp
    _ < (outcome.violations.map fun v => (lines (record v).toList).length).sum :=
      List.sum_lt_sum _ _ hone ⟨violation, h, hmore⟩
    _ = (lines (porcelain outcome).toList).length := by rw [lines_porcelain, List.length_flatMap]

/-- **When every line of the report is a record.** Cut at all ends of lines, the report has the records of the
violations as its lines, in their order, just where it has as many lines as there are violations, and that is just where
no file of a violation has an end of a line in its name. What stands in an issue does not matter. -/
theorem records_are_lines_tfae (outcome : Outcome) :
    [List.Forall₂ IsRecord outcome.violations ((lines (porcelain outcome).toList).map String.ofList),
      (lines (porcelain outcome).toList).length = outcome.violations.length,
      ∀ violation ∈ outcome.violations, HasPlainFile violation].TFAE := by
  tfae_have 1 → 2 := fun hrecords => by simpa using hrecords.length_eq.symm
  tfae_have 2 → 3 := fun hlength violation hviolation => by
    by_contra hfile
    exact (length_lt_length_lines hviolation hfile).ne hlength.symm
  tfae_have 3 → 1 := fun hfiles => by
    rw [forall₂_isRecord_iff, lines_porcelain,
      List.flatMap_congr fun violation hviolation => lines_record (hfiles violation hviolation),
      ← List.map_eq_flatMap, List.map_map]
    exact List.map_congr_left fun violation _ => String.ofList_toList
  tfae_finish

/-- A file in a directory whose name has two lines. -/
def twoLineViolation : Violation := ⟨.skipLevel, "pkg/a\nb/c.go", "pkg/a\nb imports pkg/a\nb/c/d", "", "", 0⟩

/-- **A report may have a line that is no record.** -/
theorem records_not_lines : ¬ ∀ outcome : Outcome, outcome.violations ≠ [] →
    List.Forall₂ IsRecord outcome.violations ((lines (porcelain outcome).toList).map String.ofList) := by
  intro hall
  have hlines := forall₂_isRecord_iff.mp (hall { violations := [twoLineViolation] } (by simp))
  exact absurd hlines (by decide +kernel)

end LayerLint.Report
