import LayerLint.Proofs.Disk.Write
import LayerLint.Proofs.Source.Header

/-!
# What is read of a source file

The record of a file tells its package and its imports as its header declares them, and its base name and whether it is
a test as its name says (`parse_header`); a file without a package clause or with a malformed clause in front of its
first other declaration is refused. Behind that declaration nothing is refused (`parse_malformed_behind`).
-/

namespace LayerLint.Source

/-- The characters of a file without a mark of byte order: those of its text, with others for the bytes that are
none. -/
def charsOf (bytes : ByteArray) : List Char :=
  match Text.decode bytes with
  | .ok text => withoutMark text.toList
  | .error _ => withoutMark (byteChars 0 bytes.toList)

section Parse

variable {bytes : ByteArray}

/-- A header that is refused is the reason why the file is. -/
theorem parse_of_header_error {cause : HeaderError} (h : header (tokens (charsOf bytes)) = .error cause)
    (relPath : String) (withUsages : Bool) : parse relPath bytes withUsages = .error (.header cause) := by
  have hbytes : parseBytes bytes withUsages = .error (.header cause) := by
    cases hdecode : Text.decode bytes with
    | ok text =>
      simp only [charsOf, hdecode] at h
      simp only [parseBytes, hdecode, parseText, h]
      rfl
    | error error =>
      simp only [charsOf, hdecode] at h
      simp only [parseBytes, hdecode, parseText, h]
      rfl
  rw [parse, hbytes]
  rfl

/-- A header that is found in a text is that of the file. -/
theorem parse_of_header_ok {text : String} {found : Header} (hdecode : Text.decode bytes = .ok text)
    (h : header (tokens (charsOf bytes)) = .ok found) (relPath : String) (withUsages : Bool) :
    ∃ used, parse relPath bytes withUsages = .ok
      { file :=
          { relPath := relPath, package := found.package, baseName := baseNameOf (Path.baseName relPath)
            isTest := isTestName (Path.baseName relPath), imports := found.imports.map (·.path) }
        usages := used } := by
  rw [charsOf, hdecode] at h
  refine ⟨if withUsages then usages (.ofTokens (tokens (withoutMark text.toList))) found.imports else [], ?_⟩
  have hbytes : parseBytes bytes withUsages = .ok (found,
      if withUsages then usages (.ofTokens (tokens (withoutMark text.toList))) found.imports else []) := by
    rw [parseBytes, hdecode]
    dsimp only at h ⊢
    rw [parseText, h]
    rfl
  rw [parse, hbytes]
  rfl

end Parse

/-- **The record of a file tells what its header declares.** Where the clauses of a text are a package clause, any
declarations of imports and any other declarations, the record has the package, the paths of the imports in their
order, and what the name of the file gives. A file in which no clause names a package is refused, and so is one with a
malformed package clause or declaration of imports before which no other declaration stands. -/
theorem parse_header {bytes : ByteArray} {kinds : List TokenKind} {runs : List (List TokenKind)}
    (hreads : Reads false (charsOf bytes) kinds) (hsplits : Splits kinds runs) (relPath : String) (withUsages : Bool) :
    ((∃ text, Text.decode bytes = .ok text) →
      ∀ packageClause importRuns declarations name groups, runs = packageClause :: (importRuns ++ declarations) →
        IsPackage packageClause name → List.Forall₂ IsImport importRuns groups →
        (∀ run ∈ declarations, IsDeclaration run) →
        ∃ parsed, parse relPath bytes withUsages = .ok parsed ∧ parsed.file.relPath = relPath ∧
          parsed.file.package = name ∧ parsed.file.imports = groups.flatten.map (·.path) ∧
          ∃ last ∈ (Path.segments relPath).getLast?, Names last parsed.file.baseName parsed.file.isTest) ∧
    ((∀ run ∈ runs, ¬ NamesPackage run) →
      parse relPath bytes withUsages = .error (.header .missingPackage)) ∧
    (∀ before run after, runs = before ++ run :: after → (∀ clause ∈ before, IsHeaderClause clause) →
      IsHeaderClause run → ¬ IsWellFormed run →
        ∃ cause, parse relPath bytes withUsages = .error (.header cause)) := by
  have htokens := reads_iff.mp hreads
  have hquoted := areQuoted_of_reads hreads
  refine ⟨?_, ?_, ?_⟩
  · rintro ⟨text, hdecode⟩ packageClause importRuns declarations name groups hruns hpackage himports hdeclarations
    have hheader := header_of_wellFormed htokens hsplits hquoted hruns hpackage himports hdeclarations
    obtain ⟨used, hparse⟩ := parse_of_header_ok hdecode hheader relPath withUsages
    refine ⟨_, hparse, ?_⟩
    dsimp only
    exact ⟨rfl, rfl, rfl, _, Path.getLast?_segments relPath, names_baseNameOf (Path.baseName relPath)⟩
  · intro h
    exact parse_of_header_error (header_missing htokens hsplits h) relPath withUsages
  · intro before run after hruns hbefore hclause hill
    obtain ⟨cause, hheader⟩ := header_malformed htokens hsplits hquoted hruns hbefore hclause hill
    exact ⟨cause, parse_of_header_error hheader relPath withUsages⟩

/-- A text without a mark of byte order is read as it stands. -/
theorem charsOf_toUTF8 {text : String} (h : withoutMark text.toList = text.toList) :
    charsOf text.toUTF8 = text.toList := by
  rw [charsOf, Disk.decode_toUTF8]
  exact h

/-- A test file with comments, two imports and a function. -/
def sampleSource : String :=
  "// A\npackage a\n\nimport (\n\tx \"fmt\" // B\n\t. \x60os\x60\n)\n\nfunc f() { return }\n"

theorem parse_header_sample :
    ∃ kinds runs, Reads false (charsOf sampleSource.toUTF8) kinds ∧ Splits kinds runs ∧
      ∃ parsed, parse "pkg/a_test.go" sampleSource.toUTF8 true = .ok parsed ∧ parsed.file.package = "a" ∧
        parsed.file.imports = ["fmt", "os"] := by
  have hchars : charsOf sampleSource.toUTF8 = sampleSource.toList := charsOf_toUTF8 (by decide +kernel)
  have hreads : Reads false (charsOf sampleSource.toUTF8) ((tokens sampleSource.toList).map (·.kind)) := by
    rw [hchars]
    exact reads_iff.mpr rfl
  have hsplits := splits_iff.mpr (show (clauses 0 [] (tokens sampleSource.toList)).map (·.map (·.kind)) =
      [[.word "package", .word "a"],
        [.word "import", .mark "(", .word "x", .string (String.ofList ('"' :: ("fmt".toList ++ ['"']))), .terminator,
          .mark ".", .string (String.ofList ('\x60' :: ("os".toList ++ ['\x60']))), .terminator, .mark ")"],
        [.word "func", .word "f", .mark "(", .mark ")", .mark "\x7b", .word "return", .mark "\x7d"]] from by
    decide +kernel)
  obtain ⟨parsed, hparse, -, hpackage, himports, -⟩ :=
    (parse_header hreads hsplits "pkg/a_test.go" true).1 ⟨_, Disk.decode_toUTF8 sampleSource⟩ _ [_] [_] "a"
      [[⟨"fmt", some "x"⟩, ⟨"os", some "."⟩]] rfl (.intro (by decide))
      (.cons (.group (.cons (.named (by decide) (.interpreted "fmt")) (.cons (.dot (.raw "os")) .nil))) .nil)
      (by
        intro run hrun
        obtain rfl := List.mem_singleton.mp hrun
        exact ⟨"func", by decide, _, rfl⟩)
  exact ⟨_, _, hreads, hsplits, parsed, hparse, hpackage, himports⟩

/-- An import with an escape that lacks a digit is refused, and one with all digits is not. -/
example : (parse "a.go" "package a\nimport \"m\\u012\"\n".toUTF8 false).isOk = false ∧
    (parse "a.go" "package a\nimport \"m\\u012f\"\n".toUTF8 false).isOk = true := by decide +kernel

/-- A file whose declaration of imports is malformed and stands behind a function. -/
def lateSource : String := "package a\n\nfunc f() {}\n\nimport (\n\t5\n)\n"

/-- **Behind another declaration a malformed declaration of imports is not refused.** -/
theorem parse_malformed_behind :
    ¬ ∀ (relPath : String) (bytes : ByteArray) (withUsages : Bool) (kinds : List TokenKind)
      (runs : List (List TokenKind)), Reads false (charsOf bytes) kinds → Splits kinds runs →
        (∃ run ∈ runs, IsHeaderClause run ∧ ¬ IsWellFormed run) →
          ∃ cause, parse relPath bytes withUsages = .error (.header cause) := by
  intro hall
  have hchars : charsOf lateSource.toUTF8 = lateSource.toList := charsOf_toUTF8 (by decide +kernel)
  have hreads : Reads false (charsOf lateSource.toUTF8) ((tokens lateSource.toList).map (·.kind)) := by
    rw [hchars]
    exact reads_iff.mpr rfl
  have hrun : [.word "import", .mark "(", .literal, .terminator, .mark ")"] ∈
      (clauses 0 [] (tokens lateSource.toList)).map (·.map (·.kind)) := by decide +kernel
  have hill : ¬ IsWellFormed [.word "import", .mark "(", .literal, .terminator, .mark ")"] := by
    rintro (⟨name, h⟩ | ⟨specs, h⟩)
    · have hlength : ∀ {run name}, IsPackage run name → run.length = 2 := by
        rintro _ _ ⟨_⟩
        rfl
      exact absurd (hlength h) (by decide)
    · have hspecs := (importSpecs?_iff (by intro raw hraw; simp at hraw)).mpr h
      exact absurd hspecs (by simp [importSpecs?, specRuns, importSpec?])
  obtain ⟨cause, hparse⟩ := hall "pkg/a/b.go" lateSource.toUTF8 false _ _ hreads (splits_iff.mpr rfl)
    ⟨_, hrun, ⟨"import", by decide, _, rfl⟩, hill⟩
  have hok : (parse "pkg/a/b.go" lateSource.toUTF8 false).isOk := by decide +kernel
  rw [hparse] at hok
  cases hok

end LayerLint.Source
