import LayerLint.Proofs.Rule.NamingGroups
import LayerLint.Proofs.Source.Name
import Mathlib.Data.List.Dedup

/-!
# Which files the naming rule reports

The key of a file, its directory and base name, and the kind of the file are known from its path in normal form and make
it (`normalized_eq_iff`). So where these paths are distinct, a group holds at most one implementation file and one test
file, and the rule reports just the files without partner: a test file `D/b_test.go` where no implementation file
`D/b.go` is listed, and an implementation file where no test file is listed (`checkTestNaming_reports_lone_files`).
Where two of the paths agree, there is a report of several files with one name (`exists_multiple_iff`).
-/

namespace LayerLint.Rule

/-! ## Files without company -/

/-- The group of a key without files. -/
def FileGroup.empty (key : String × String) : FileGroup :=
  { directory := key.1, baseName := key.2, implFiles := [], testFiles := [] }

/-- The file is of the given kind, and no file of the other kind has its key. -/
def IsLone (nodes : List FileNode) (isTest : Bool) (node : FileNode) : Prop :=
  node.isTest = isTest ∧ filesAt nodes (groupKey node) (!isTest) = []

instance (nodes : List FileNode) (isTest : Bool) : DecidablePred (IsLone nodes isTest) :=
  fun _ => inferInstanceAs (Decidable (_ ∧ _))

variable {nodes : List FileNode} {graph : Graph} {policy : Policy}

/-- What is said of the files of a key without company is said of those lone files that have this key. -/
theorem filter_lone_at_key (nodes : List FileNode) (isTest : Bool) (key : String × String)
    (report : String × String → String → Violation) :
    (if (filesAt nodes key (!isTest)).isEmpty then (filesAt nodes key isTest).map (report key) else []) =
      ((nodes.filter fun node => IsLone nodes isTest node).filter fun node => groupKey node = key).map
        fun node => report (groupKey node) node.relPath := by
  rw [List.filter_filter]
  split
  · rename_i hempty
    rw [List.isEmpty_iff] at hempty
    have hsame : (nodes.filter fun node => decide (groupKey node = key) && decide (IsLone nodes isTest node)) =
        nodes.filter fun node => groupKey node = key ∧ node.isTest = isTest := by
      apply List.filter_congr
      intro node _
      rw [← Bool.decide_and, decide_eq_decide]
      constructor
      · rintro ⟨hkey, htest, -⟩
        exact ⟨hkey, htest⟩
      · rintro ⟨hkey, htest⟩
        exact ⟨hkey, htest, hkey ▸ hempty⟩
    rw [hsame, filesAt, List.map_map]
    apply List.map_congr_left
    intro node hnode
    rw [Function.comp_apply, (of_decide_eq_true (List.mem_filter.mp hnode).2).1]
  · rename_i hothers
    symm
    rw [List.map_eq_nil_iff, List.filter_eq_nil_iff]
    intro node _ h
    rw [Bool.and_eq_true, decide_eq_true_eq, decide_eq_true_eq] at h
    obtain ⟨rfl, -, hempty⟩ := h
    exact hothers (List.isEmpty_iff.mpr hempty)

/-- **Key by key, the files without company** are the lone files. -/
theorem flatMap_lone_perm {keys : List (String × String)} (hnodup : keys.Nodup)
    (hkeys : ∀ node ∈ nodes, groupKey node ∈ keys) (isTest : Bool) (report : String × String → String → Violation) :
    (keys.flatMap fun key =>
        if (filesAt nodes key (!isTest)).isEmpty then (filesAt nodes key isTest).map (report key) else []).Perm
      ((nodes.filter fun node => IsLone nodes isTest node).map fun node => report (groupKey node) node.relPath) := by
  simp only [filter_lone_at_key]
  rw [← List.map_flatMap]
  exact (flatMap_filter_perm hnodup fun node hnode => hkeys node (List.mem_filter.mp hnode).1).map _

/-- The violations of a group of at most one file of either kind. -/
theorem checkGroup_of_length_le_one {group : FileGroup} (himpl : group.implFiles.length ≤ 1)
    (htest : group.testFiles.length ≤ 1) (flagMissingTests : Bool) : checkGroup flagMissingTests group =
      (if group.implFiles.isEmpty then group.testFiles.map (orphanedTest group) else []) ++
        if flagMissingTests then
          if group.testFiles.isEmpty then group.implFiles.map (missingTest group) else []
        else [] := by
  unfold checkGroup
  rw [List.drop_eq_nil_of_le himpl, if_neg (Nat.not_lt.mpr htest), List.take_of_length_le himpl]
  cases flagMissingTests <;> rfl

theorem orphanedTest_not_multiple (group : FileGroup) (file : String) :
    Text.startsWith (orphanedTest group file).issue "Multiple " = false := by
  simp [orphanedTest, namingViolation, Text.startsWith, List.isPrefixOf]

theorem missingTest_not_multiple (group : FileGroup) (file : String) :
    Text.startsWith (missingTest group file).issue "Multiple " = false := by
  simp [missingTest, namingViolation, Text.startsWith, List.isPrefixOf]

/-- A group of at most one file of either kind has not several files of one name. -/
theorem checkGroup_not_multiple {group : FileGroup} (himpl : group.implFiles.length ≤ 1)
    (htest : group.testFiles.length ≤ 1) {flagMissingTests : Bool} {report : Violation}
    (hreport : report ∈ checkGroup flagMissingTests group) : Text.startsWith report.issue "Multiple " = false := by
  rw [checkGroup_of_length_le_one himpl htest, List.mem_append] at hreport
  have horphaned : ∀ report ∈ group.testFiles.map (orphanedTest group),
      Text.startsWith report.issue "Multiple " = false :=
    List.forall_mem_map.mpr fun file _ => orphanedTest_not_multiple group file
  have hmissing : ∀ report ∈ group.implFiles.map (missingTest group),
      Text.startsWith report.issue "Multiple " = false :=
    List.forall_mem_map.mpr fun file _ => missingTest_not_multiple group file
  rcases hreport with hreport | hreport
  · split at hreport
    · exact horphaned report hreport
    · cases hreport
  · split at hreport
    · split at hreport
      · exact hmissing report hreport
      · cases hreport
    · cases hreport

/-- **The lone files are reported**, where no key has two files of one kind. -/
theorem checkTestNaming_perm_lone (hunique : ∀ key isTest, (filesAt (pairedFiles graph) key isTest).length ≤ 1) :
    (checkTestNaming graph policy).Perm
      (((pairedFiles graph).filter fun node => IsLone (pairedFiles graph) true node).map
          (fun node => orphanedTest (.empty (groupKey node)) node.relPath) ++
        if policy.flagMissingTests then
          ((pairedFiles graph).filter fun node => IsLone (pairedFiles graph) false node).map
            fun node => missingTest (.empty (groupKey node)) node.relPath
        else []) := by
  obtain ⟨keys, hnodup, hkeys, hviolations⟩ := exists_checkTestNaming_eq graph policy
  have hcover : ∀ node ∈ pairedFiles graph, groupKey node ∈ keys := fun node hnode => (hkeys _).mpr ⟨node, hnode, rfl⟩
  have hgroup : ∀ key, checkGroup policy.flagMissingTests (groupAt (pairedFiles graph) key) = _ :=
    fun key => checkGroup_of_length_le_one (hunique key false) (hunique key true) policy.flagMissingTests
  rw [hviolations, List.flatMap_congr fun key _ => hgroup key]
  refine (List.flatMap_append_perm keys _ _).symm.trans (.append ?_ ?_)
  · exact flatMap_lone_perm hnodup hcover true fun key => orphanedTest (.empty key)
  · cases policy.flagMissingTests with
    | false => simp
    | true => exact flatMap_lone_perm hnodup hcover false fun key => missingTest (.empty key)

end LayerLint.Rule

namespace LayerLint

/-! ## Keys and paths -/

/-- The record says of the file's name what a scan reads from it. -/
structure SourceFile.IsNamed (file : SourceFile) : Prop where
  suffix : Text.endsWith (Path.baseName file.relPath) Source.fileSuffix = true
  baseName_eq : file.baseName = Source.baseNameOf (Path.baseName file.relPath)
  isTest_eq : file.isTest = Source.isTestName (Path.baseName file.relPath)

instance (file : SourceFile) : Decidable file.IsNamed :=
  decidable_of_iff (Text.endsWith (Path.baseName file.relPath) Source.fileSuffix = true ∧
      file.baseName = Source.baseNameOf (Path.baseName file.relPath) ∧
        file.isTest = Source.isTestName (Path.baseName file.relPath))
    ⟨fun ⟨h1, h2, h3⟩ => ⟨h1, h2, h3⟩, fun ⟨h1, h2, h3⟩ => ⟨h1, h2, h3⟩⟩

namespace SourceFile

/-- The directory and the base name of a file. -/
def key (file : SourceFile) : String × String := (Path.directoryOf file.relPath, file.baseName)

variable {file : SourceFile} {directory base : String} {isTest : Bool}

theorem key_eq_iff :
    file.key = (directory, base) ↔ Path.directoryOf file.relPath = directory ∧ file.baseName = base := by
  rw [key, Prod.mk.injEq]

theorem IsNamed.baseName_relPath (h : file.IsNamed) :
    Path.baseName file.relPath = file.baseName ++ Source.ending file.isTest := by
  rw [h.baseName_eq, h.isTest_eq]
  exact Source.name_eq h.suffix

theorem IsNamed.not_mem_baseName (h : file.IsNamed) : '/' ∉ file.baseName.toList := by
  intro hmem
  apply Path.not_mem_baseName file.relPath
  rw [h.baseName_relPath, String.toList_append]
  exact List.mem_append_left _ hmem

theorem not_mem_append_ending (hbase : '/' ∉ base.toList) (isTest : Bool) :
    '/' ∉ (base ++ Source.ending isTest).toList := by
  rw [String.toList_append, List.mem_append, not_or]
  exact ⟨hbase, by cases isTest <;> decide⟩

/-- The path in normal form tells the directory and the name. -/
theorem directory_and_name_of_normalized_eq (hbase : '/' ∉ base.toList)
    (hpath : Path.normalized file.relPath = Path.entry directory (base ++ Source.ending isTest)) :
    Path.directoryOf file.relPath = directory ∧ Path.baseName file.relPath = base ++ Source.ending isTest :=
  Path.entry_injective (Path.not_mem_baseName file.relPath) (not_mem_append_ending hbase isTest) hpath

/-- **The path in normal form is made of the key**, and the key is known from it and the kind of the file. -/
theorem IsNamed.normalized_eq_iff (h : file.IsNamed) (hbase : '/' ∉ base.toList) :
    (file.isTest = isTest ∧ Path.normalized file.relPath = Path.entry directory (base ++ Source.ending isTest)) ↔
      file.key = (directory, base) ∧ file.isTest = isTest := by
  constructor
  · rintro ⟨rfl, hpath⟩
    obtain ⟨hdirectory, hname⟩ := directory_and_name_of_normalized_eq hbase hpath
    rw [h.baseName_relPath] at hname
    exact ⟨key_eq_iff.mpr ⟨hdirectory, (String.append_left_inj _).mp hname⟩, rfl⟩
  · rintro ⟨hkey, rfl⟩
    obtain ⟨rfl, rfl⟩ := key_eq_iff.mp hkey
    exact ⟨rfl, by rw [Path.normalized, h.baseName_relPath]⟩

/-- Two files have one path in normal form when they have one key and are of one kind. -/
theorem IsNamed.normalized_eq_normalized_iff {other : SourceFile} (h : file.IsNamed) (hother : other.IsNamed) :
    Path.normalized file.relPath = Path.normalized other.relPath ↔
      file.key = other.key ∧ file.isTest = other.isTest := by
  constructor
  · intro hpath
    obtain ⟨hdirectory, hname⟩ :=
      Path.entry_injective (Path.not_mem_baseName file.relPath) (Path.not_mem_baseName other.relPath) hpath
    refine ⟨key_eq_iff.mpr ⟨hdirectory, ?_⟩, ?_⟩
    · rw [h.baseName_eq, hname, hother.baseName_eq]
    · rw [h.isTest_eq, hname, hother.isTest_eq]
  · rintro ⟨hkey, htest⟩
    obtain ⟨hdirectory, hbase⟩ := key_eq_iff.mp hkey
    rw [Path.normalized, Path.normalized, h.baseName_relPath, hother.baseName_relPath, hdirectory, hbase, htest]

/-- A file at the path of a test is a test. -/
theorem IsNamed.isTest_of_normalized_eq (h : file.IsNamed) (hbase : '/' ∉ base.toList)
    (hpath : Path.normalized file.relPath = Path.entry directory (base ++ Source.ending true)) :
    file.isTest = true := by
  rw [h.isTest_eq, (directory_and_name_of_normalized_eq hbase hpath).2]
  exact Source.isTestName_append_ending base

end SourceFile

/-! ## Listed files -/

/-- Files as a scan lists them: what is said of a name is read from it, and no two files have the same path in normal
form. -/
structure IsListing (files : List SourceFile) : Prop where
  named : ∀ file ∈ files, file.IsNamed
  distinct : (files.map fun file => Path.normalized file.relPath).Nodup

namespace FileNode

variable (modulePath : String) (usages : Usages) (file : SourceFile)

@[simp] theorem relPath_ofFile : (ofFile modulePath usages file).relPath = file.relPath := rfl

@[simp] theorem baseName_ofFile : (ofFile modulePath usages file).baseName = file.baseName := rfl

@[simp] theorem isTest_ofFile : (ofFile modulePath usages file).isTest = file.isTest := rfl

@[simp] theorem groupKey_ofFile : Rule.groupKey (ofFile modulePath usages file) = file.key := rfl

end FileNode

namespace Rule

variable {files : List SourceFile} {file : SourceFile} {modulePath : String} {usages : Usages} {policy : Policy}

theorem pairedFiles_build : pairedFiles (Graph.build files modulePath usages) =
    (files.filter fun file => !isNamingExempt file.baseName).map (FileNode.ofFile modulePath usages) :=
  List.filter_map

theorem filesAt_map_ofFile (files : List SourceFile) (key : String × String) (isTest : Bool) :
    filesAt (files.map (FileNode.ofFile modulePath usages)) key isTest =
      (files.filter fun file => file.key = key ∧ file.isTest = isTest).map (·.relPath) := by
  unfold filesAt
  rw [List.filter_map, List.map_map]
  have hsame : ∀ file ∈ files, ((fun node => decide (groupKey node = key ∧ node.isTest = isTest)) ∘
      FileNode.ofFile modulePath usages) file = decide (file.key = key ∧ file.isTest = isTest) := by
    intro file _
    rw [Function.comp_apply, decide_eq_decide, FileNode.groupKey_ofFile, FileNode.isTest_ofFile]
  rw [List.filter_congr hsame]
  rfl

/-- Files have the same path in normal form when they have the same key and are of the same kind. -/
theorem count_normalized (hnamed : ∀ file ∈ files, file.IsNamed) (hfile : file ∈ files) :
    (files.map fun file => Path.normalized file.relPath).count (Path.normalized file.relPath) =
      (filesAt (files.map (FileNode.ofFile modulePath usages)) file.key file.isTest).length := by
  have hsame : ∀ other ∈ files,
      ((· == Path.normalized file.relPath) ∘ fun file => Path.normalized file.relPath) other =
        decide (other.key = file.key ∧ other.isTest = file.isTest) := by
    intro other hother
    rw [Function.comp_apply, Bool.eq_iff_iff, beq_iff_eq, decide_eq_true_eq]
    exact (hnamed other hother).normalized_eq_normalized_iff (hnamed file hfile)
  rw [filesAt_map_ofFile, List.length_map, List.count, List.countP_map, List.countP_eq_length_filter,
    List.filter_congr hsame]

/-- **Paths in normal form are distinct** when no key has two files of one kind. -/
theorem nodup_normalized_iff (hnamed : ∀ file ∈ files, file.IsNamed) (modulePath : String) (usages : Usages) :
    (files.map fun file => Path.normalized file.relPath).Nodup ↔
      ∀ key isTest, (filesAt (files.map (FileNode.ofFile modulePath usages)) key isTest).length ≤ 1 := by
  rw [List.nodup_iff_count_le_one]
  constructor
  · intro hcount key isTest
    by_cases hkey : ∃ file ∈ files, file.key = key ∧ file.isTest = isTest
    · obtain ⟨file, hfile, hfilekey, htest⟩ := hkey
      rw [← hfilekey, ← htest, ← count_normalized hnamed hfile]
      exact hcount _
    · have hnone : (files.filter fun file => file.key = key ∧ file.isTest = isTest) = [] := by
        rw [List.filter_eq_nil_iff]
        intro file hfile h
        exact hkey ⟨file, hfile, of_decide_eq_true h⟩
      rw [filesAt_map_ofFile, hnone]
      exact Nat.zero_le 1
  · intro hlength path
    by_cases hpath : path ∈ files.map fun file => Path.normalized file.relPath
    · obtain ⟨file, hfile, rfl⟩ := List.mem_map.mp hpath
      rw [count_normalized hnamed hfile]
      exact hlength file.key file.isTest
    · rw [List.count_eq_zero_of_not_mem hpath]
      exact Nat.zero_le 1

/-- Of listed files, a key has at most one of either kind. -/
theorem length_filesAt_le_one (h : IsListing files) (modulePath : String) (usages : Usages) (key : String × String)
    (isTest : Bool) :
    (filesAt (pairedFiles (Graph.build files modulePath usages)) key isTest).length ≤ 1 := by
  rw [pairedFiles_build]
  have hnamed : ∀ file ∈ files.filter fun file => !isNamingExempt file.baseName, file.IsNamed :=
    fun file hfile => h.named file (List.mem_filter.mp hfile).1
  exact (nodup_normalized_iff hnamed modulePath usages).mp (h.distinct.sublist (List.filter_sublist.map _)) key isTest

/-- **A lone file** is one whose partner is not listed. -/
theorem isLone_ofFile_iff (h : IsListing files) (hfile : file ∈ files) (hpaired : isNamingExempt file.baseName = false)
    (isTest : Bool) :
    IsLone (pairedFiles (Graph.build files modulePath usages)) isTest (FileNode.ofFile modulePath usages file) ↔
      file.isTest = isTest ∧ ∀ other ∈ files, other.isTest = !isTest →
        Path.normalized other.relPath ≠
          Path.entry (Path.directoryOf file.relPath) (file.baseName ++ Source.ending (!isTest)) := by
  have hslash := (h.named file hfile).not_mem_baseName
  rw [IsLone, pairedFiles_build, filesAt_map_ofFile, List.map_eq_nil_iff, List.filter_filter, List.filter_eq_nil_iff,
    FileNode.isTest_ofFile, FileNode.groupKey_ofFile]
  apply and_congr_right'
  constructor
  · intro hnone other hother htest hpath
    have hkey := ((h.named other hother).normalized_eq_iff hslash).mp ⟨htest, hpath⟩
    have hbase : other.baseName = file.baseName := (SourceFile.key_eq_iff.mp hkey.1).2
    apply hnone other hother
    rw [Bool.and_eq_true, decide_eq_true_eq, hbase, hpaired]
    exact ⟨hkey, rfl⟩
  · intro hnone other hother hat
    rw [Bool.and_eq_true, decide_eq_true_eq] at hat
    obtain ⟨htest, hpath⟩ := ((h.named other hother).normalized_eq_iff hslash).mpr hat.1
    exact hnone other hother htest hpath

/-! ## Exact reports -/

/-- A test file `D/b_test.go` whose base name is not exempt, where no implementation file `D/b.go` is listed. -/
def LacksImplementation (files : List SourceFile) (file : SourceFile) : Prop :=
  file.isTest = true ∧ isNamingExempt file.baseName = false ∧ ∀ other ∈ files, other.isTest = false →
    Path.normalized other.relPath ≠ Path.entry (Path.directoryOf file.relPath) (file.baseName ++ ".go")

/-- An implementation file `D/b.go` whose base name is not exempt, where no file `D/b_test.go` is listed. -/
def LacksTest (files : List SourceFile) (file : SourceFile) : Prop :=
  file.isTest = false ∧ isNamingExempt file.baseName = false ∧ ∀ other ∈ files,
    Path.normalized other.relPath ≠ Path.entry (Path.directoryOf file.relPath) (file.baseName ++ "_test.go")

instance (files : List SourceFile) : DecidablePred (LacksImplementation files) :=
  fun _ => inferInstanceAs (Decidable (_ ∧ _))

instance (files : List SourceFile) : DecidablePred (LacksTest files) :=
  fun _ => inferInstanceAs (Decidable (_ ∧ _))

theorem lacksImplementation_iff (h : IsListing files) (hfile : file ∈ files) : LacksImplementation files file ↔
    isNamingExempt file.baseName = false ∧
      IsLone (pairedFiles (Graph.build files modulePath usages)) true (FileNode.ofFile modulePath usages file) := by
  constructor
  · rintro ⟨htest, hpaired, hnone⟩
    exact ⟨hpaired, (isLone_ofFile_iff h hfile hpaired true).mpr ⟨htest, hnone⟩⟩
  · rintro ⟨hpaired, hlone⟩
    obtain ⟨htest, hnone⟩ := (isLone_ofFile_iff h hfile hpaired true).mp hlone
    exact ⟨htest, hpaired, hnone⟩

theorem lacksTest_iff (h : IsListing files) (hfile : file ∈ files) : LacksTest files file ↔
    isNamingExempt file.baseName = false ∧
      IsLone (pairedFiles (Graph.build files modulePath usages)) false (FileNode.ofFile modulePath usages file) := by
  constructor
  · rintro ⟨htest, hpaired, hnone⟩
    exact ⟨hpaired, (isLone_ofFile_iff h hfile hpaired false).mpr ⟨htest, fun other hother _ => hnone other hother⟩⟩
  · rintro ⟨hpaired, hlone⟩
    obtain ⟨htest, hnone⟩ := (isLone_ofFile_iff h hfile hpaired false).mp hlone
    refine ⟨htest, hpaired, fun other hother hpath => hnone other hother ?_ hpath⟩
    exact (h.named other hother).isTest_of_normalized_eq (h.named file hfile).not_mem_baseName hpath

/-- The reports of the lone files are those of the files that lack their partner. -/
theorem map_filter_lone_eq {nodes : List FileNode} {isTest : Bool} {lacks : SourceFile → Prop} [DecidablePred lacks]
    (hlacks : ∀ file ∈ files, lacks file ↔
      isNamingExempt file.baseName = false ∧ IsLone nodes isTest (FileNode.ofFile modulePath usages file))
    (report : String × String → String → Violation) :
    ((pairedFiles (Graph.build files modulePath usages)).filter fun node => IsLone nodes isTest node).map
        (fun node => report (groupKey node) node.relPath) =
      (files.filter fun file => lacks file).map fun file => report file.key file.relPath := by
  rw [pairedFiles_build, List.filter_map, List.filter_filter, List.map_map]
  have hsame : ∀ file ∈ files, (((fun node => decide (IsLone nodes isTest node)) ∘
      FileNode.ofFile modulePath usages) file && !isNamingExempt file.baseName) = decide (lacks file) := by
    intro file hfile
    rw [Function.comp_apply, Bool.eq_iff_iff, Bool.and_eq_true, Bool.not_eq_true', decide_eq_true_eq, decide_eq_true_eq,
      hlacks file hfile, and_comm]
  rw [List.filter_congr hsame]
  rfl

theorem nodup_relPaths (h : IsListing files) : (files.map (·.relPath)).Nodup := by
  apply List.Nodup.of_map Path.normalized
  simpa only [List.map_map, Function.comp_def] using h.distinct

/-- No file lacks both an implementation and a test. -/
theorem disjoint_lacking (h : IsListing files) :
    ((files.filter fun file => LacksImplementation files file).map (·.relPath)).Disjoint
      ((files.filter fun file => LacksTest files file).map (·.relPath)) := by
  intro path horphan hmissing
  obtain ⟨file, hfile, rfl⟩ := List.mem_map.mp horphan
  obtain ⟨other, hother, hpath⟩ := List.mem_map.mp hmissing
  obtain ⟨hfile, htest⟩ := List.mem_filter.mp hfile
  obtain ⟨hother, himpl⟩ := List.mem_filter.mp hother
  obtain rfl := List.inj_on_of_nodup_map (nodup_relPaths h) hother hfile hpath
  exact Bool.false_ne_true ((of_decide_eq_true himpl).1.symm.trans (of_decide_eq_true htest).1)

/-- **The rule reports just the files without partner.** Of listed files it reports each test file whose implementation
file is not listed, each once, and where missing tests are flagged each implementation file whose test file is not
listed, each once, but never several files with one name, and no file twice. -/
theorem checkTestNaming_reports_lone_files (h : IsListing files) (modulePath : String) (usages : Usages)
    (policy : Policy) :
    let reports := checkTestNaming (Graph.build files modulePath usages) policy
    reports.Perm
        ((files.filter fun file => LacksImplementation files file).map
            (fun file => orphanedTest (.empty file.key) file.relPath) ++
          if policy.flagMissingTests then
            (files.filter fun file => LacksTest files file).map fun file => missingTest (.empty file.key) file.relPath
          else []) ∧
      (∀ report ∈ reports, Text.startsWith report.issue "Multiple " = false) ∧ (reports.map (·.file)).Nodup := by
  intro reports
  have hperm : reports.Perm _ := checkTestNaming_perm_lone (length_filesAt_le_one h modulePath usages)
  rw [map_filter_lone_eq (fun file hfile => lacksImplementation_iff h hfile) fun key => orphanedTest (.empty key),
    map_filter_lone_eq (fun file hfile => lacksTest_iff h hfile) fun key => missingTest (.empty key)] at hperm
  refine ⟨hperm, ?_, ?_⟩
  · intro report hreport
    obtain ⟨keys, -, -, hviolations⟩ := exists_checkTestNaming_eq (Graph.build files modulePath usages) policy
    have hmem : report ∈ checkTestNaming (Graph.build files modulePath usages) policy := hreport
    rw [hviolations] at hmem
    obtain ⟨key, -, hgroup⟩ := List.mem_flatMap.mp hmem
    have hunique := length_filesAt_le_one h modulePath usages key
    exact checkGroup_not_multiple (hunique false) (hunique true) hgroup
  · have hnodup : ∀ lacks : SourceFile → Bool, ((files.filter lacks).map (·.relPath)).Nodup :=
      fun lacks => (nodup_relPaths h).sublist (List.filter_sublist.map _)
    rw [(hperm.map _).nodup_iff, List.map_append, List.map_map]
    split
    · rw [List.map_map]
      exact (hnodup _).append (hnodup _) (disjoint_lacking h)
    · rw [List.map_nil, List.append_nil]
      exact hnodup _

/-- Odd names: a test is no implementation file, not even that of `x_test_test.go`, and the base name of `_test.go` is
empty. -/
theorem reports_of_odd_names :
    let files : List SourceFile :=
      [⟨"pkg/a/_test.go", "a", "", true, []⟩, ⟨"pkg/a/doc.go", "a", "doc", false, []⟩,
        ⟨"pkg/a/x.go", "a", "x", false, []⟩, ⟨"pkg/a/x_test.go", "a", "x", true, []⟩,
        ⟨"pkg/a/x_test_test.go", "a", "x_test", true, []⟩, ⟨"pkg/a/y.go", "a", "y", false, []⟩,
        ⟨"pkg/b/y_test.go", "b", "y", true, []⟩]
    IsListing files ∧ ((checkTestNaming (Graph.build files "m" []) { flagMissingTests := true }).map (·.file)).Perm
      ["pkg/a/_test.go", "pkg/a/x_test_test.go", "pkg/b/y_test.go", "pkg/a/y.go"] := by
  intro files
  have hlisting : IsListing files := ⟨by decide +kernel, by decide +kernel⟩
  have hlone := (checkTestNaming_reports_lone_files hlisting "m" [] { flagMissingTests := true }).1.map (·.file)
  exact ⟨hlisting, hlone.trans (.of_eq (by decide +kernel))⟩

/-! ## Files of one name -/

theorem duplicateImpl_multiple (group : FileGroup) (file : String) :
    Text.startsWith (duplicateImpl group file).issue "Multiple " = true := by
  simp [duplicateImpl, namingViolation, Text.startsWith, List.isPrefixOf]

theorem duplicateTest_multiple (group : FileGroup) (file : String) :
    Text.startsWith (duplicateTest group file).issue "Multiple " = true := by
  simp [duplicateTest, namingViolation, Text.startsWith, List.isPrefixOf]

/-- Several files of one name are reported where a group has several implementation files or several tests. -/
theorem exists_multiple_mem_checkGroup_iff {group : FileGroup} {flagMissingTests : Bool} :
    (∃ report ∈ checkGroup flagMissingTests group, Text.startsWith report.issue "Multiple " = true) ↔
      1 < group.implFiles.length ∨ 1 < group.testFiles.length := by
  constructor
  · rintro ⟨report, hreport, hmultiple⟩
    by_contra hfew
    obtain ⟨himpl, htest⟩ := not_or.mp hfew
    have hnot := checkGroup_not_multiple (Nat.not_lt.mp himpl) (Nat.not_lt.mp htest) hreport
    exact Bool.false_ne_true (hnot.symm.trans hmultiple)
  · rintro (himpl | htest)
    · obtain ⟨file, hfile⟩ := List.exists_mem_of_length_pos (l := group.implFiles.drop 1)
        (by rw [List.length_drop]; omega)
      refine ⟨duplicateImpl group file, ?_, duplicateImpl_multiple group file⟩
      simp only [checkGroup, List.append_assoc]
      exact List.mem_append_left _ (List.mem_map_of_mem hfile)
    · obtain ⟨file, hfile⟩ := List.exists_mem_of_length_pos (Nat.zero_lt_of_lt htest)
      refine ⟨duplicateTest group file, ?_, duplicateTest_multiple group file⟩
      simp only [checkGroup, List.append_assoc, if_pos htest]
      exact List.mem_append_right _ (List.mem_append_left _ (List.mem_map_of_mem hfile))

/-- **Several files of one name are reported** just where the paths of two files that are not exempt agree in normal
form. -/
theorem exists_multiple_iff (hnamed : ∀ file ∈ files, file.IsNamed) :
    (∃ report ∈ checkTestNaming (Graph.build files modulePath usages) policy,
        Text.startsWith report.issue "Multiple " = true) ↔
      ¬ ((files.filter fun file => !isNamingExempt file.baseName).map
        fun file => Path.normalized file.relPath).Nodup := by
  obtain ⟨keys, -, hkeys, hviolations⟩ := exists_checkTestNaming_eq (Graph.build files modulePath usages) policy
  have hpaired : ∀ file ∈ files.filter fun file => !isNamingExempt file.baseName, file.IsNamed :=
    fun file hfile => hnamed file (List.mem_filter.mp hfile).1
  rw [nodup_normalized_iff hpaired modulePath usages, ← pairedFiles_build, hviolations]
  push Not
  constructor
  · rintro ⟨report, hreport, hmultiple⟩
    obtain ⟨key, -, hreport⟩ := List.mem_flatMap.mp hreport
    rcases exists_multiple_mem_checkGroup_iff.mp ⟨report, hreport, hmultiple⟩ with himpl | htest
    · exact ⟨key, false, himpl⟩
    · exact ⟨key, true, htest⟩
  · rintro ⟨key, isTest, hlength⟩
    have hmem : key ∈ keys := by
      obtain ⟨path, hpath⟩ := List.exists_mem_of_length_pos (Nat.zero_lt_of_lt hlength)
      obtain ⟨node, hnode, -⟩ := List.mem_map.mp hpath
      obtain ⟨hnode, hat⟩ := List.mem_filter.mp hnode
      exact (hkeys key).mpr ⟨node, hnode, (of_decide_eq_true hat).1⟩
    have hgroup : 1 < (groupAt (pairedFiles (Graph.build files modulePath usages)) key).implFiles.length ∨
        1 < (groupAt (pairedFiles (Graph.build files modulePath usages)) key).testFiles.length := by
      cases isTest with
      | false => exact Or.inl hlength
      | true => exact Or.inr hlength
    obtain ⟨report, hreport, hmultiple⟩ := exists_multiple_mem_checkGroup_iff.mpr hgroup
    exact ⟨report, List.mem_flatMap.mpr ⟨key, hmem, hreport⟩, hmultiple⟩

end Rule

end LayerLint
