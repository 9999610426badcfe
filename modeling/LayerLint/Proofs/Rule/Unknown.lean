import LayerLint.Proofs.Rule.Structure
import LayerLint.Proofs.Scan.Reading
import LayerLint.Proofs.Validation.Pass

/-!
# Required directories of which nothing can be said

The reports on required directories are made for each of them apart (`filter_requiredReports`), so those on the others
are the reports of the policy without one (`Policy.notRequiring`). Where it cannot be said what stands at a required
directory, it is not reported as missing or empty. It counts as present nevertheless, and so it is reported as unused
where no file of the graph lies below it (`checkStructure_unknown`, `checkStructure_unknown_reported`).
-/

namespace LayerLint

/-- The policy without a required directory. -/
def Policy.notRequiring (policy : Policy) (directory : String) : Policy :=
  { policy with requiredDirectories := policy.requiredDirectories.erase directory }

namespace Rule

variable {disk : Disk} {root location : Location} {graph : Graph} {policy : Policy} {cause : FileError}
  {key purpose name : String} {required : List (String × String)} {report : Violation}

/-! ## Reports on one required directory and on the others -/

theorem file_of_presenceViolation? {directory : String} {presence : Presence}
    (h : presenceViolation? directory purpose presence = some report) : report.file = directory := by
  cases presence <;> simp only [presenceViolation?, Option.some.injEq, reduceCtorEq] at h
  case missing => rw [← h]
  case notDirectory => rw [← h]
  case empty => rw [← h]

theorem kind_of_mem_requiredReports (h : report ∈ requiredReports disk root graph required) :
    report.kind ≠ .unexpectedDirectory := by
  rcases List.mem_append.mp h with h | h
  · obtain ⟨entry, -, hreport⟩ := List.mem_filterMap.mp h
    rcases kind_of_presenceViolation? hreport with hkind | hkind <;> simp [hkind]
  · simp [kind_of_mem_detectUnusedDirectories h]

/-- **Each report on a required directory is made for that directory alone.** -/
theorem filter_requiredReports (keeps : String → Bool) (required : List (String × String)) :
    (requiredReports disk root graph required).filter (fun v => keeps v.file) =
      requiredReports disk root graph (required.filter fun entry => keeps entry.1) := by
  rw [requiredReports, requiredReports, List.filter_append, List.filter_filterMap, List.filterMap_filter]
  congr 1
  · refine List.filterMap_congr fun entry _ => ?_
    cases hreport : presenceViolation? entry.1 entry.2 (presence disk (root.join entry.1)) with
    | none => simp
    | some report => rw [Option.filter_some, file_of_presenceViolation? hreport]
  · rw [detectUnusedDirectories, detectUnusedDirectories, List.filter_map, List.filter_filter, List.filter_filter,
      List.filter_filter, List.filter_filter]
    congr 1
    refine List.filter_congr fun entry _ => ?_
    simp only [Function.comp_apply, unusedDirectory]
    cases keeps entry.1 <;> simp

/-- All other reports are on unexpected directories. -/
theorem filter_expected_checkStructure (disk : Disk) (root : Location) (graph : Graph) (policy : Policy) :
    (checkStructure disk root graph policy).filter (fun v => v.kind ≠ .unexpectedDirectory) =
      requiredReports disk root graph policy.requiredDirectories.entries := by
  rw [checkStructure_eq]
  split
  · rename_i hempty
    rw [List.isEmpty_iff.mp hempty]
    rfl
  · have hunexpected : ((if policy.allowOtherDirectories then []
        else (unexpectedDirs disk root policy).map unexpectedDirectory).filter
          fun v => v.kind ≠ .unexpectedDirectory) = [] := by
      rw [List.filter_eq_nil_iff]
      intro v hv
      split at hv
      · cases hv
      · obtain ⟨name, -, rfl⟩ := List.mem_map.mp hv
        simp [unexpectedDirectory]
    rw [List.filter_append, hunexpected, List.append_nil, List.filter_eq_self]
    exact fun v hv => by simpa using kind_of_mem_requiredReports hv

theorem filter_unexpected_checkStructure (hsome : policy.requiredDirectories.entries ≠ []) :
    (checkStructure disk root graph policy).filter (fun v => v.kind = .unexpectedDirectory) =
      if policy.allowOtherDirectories then [] else (unexpectedDirs disk root policy).map unexpectedDirectory := by
  have hrequired : ((requiredReports disk root graph policy.requiredDirectories.entries).filter
      fun v => v.kind = .unexpectedDirectory) = [] := by
    rw [List.filter_eq_nil_iff]
    exact fun v hv => by simpa using kind_of_mem_requiredReports hv
  rw [checkStructure_of_required hsome, List.filter_append, hrequired, List.nil_append]
  split
  · rfl
  · rw [List.filter_eq_self]
    intro v hv
    obtain ⟨name, -, rfl⟩ := List.mem_map.mp hv
    simp [unexpectedDirectory]

/-! ## Expected directories -/

/-- A required directory accounts for itself and those above it. -/
theorem isExpectedDirectory_notRequiring (hkey : key ∈ policy.requiredDirectories.keys) (name : String) :
    isExpectedDirectory policy name =
      (isExpectedDirectory (policy.notRequiring key) name || Path.isUnder key name) := by
  have hrequired : policy.requiredDirectories.contains name =
      ((policy.notRequiring key).requiredDirectories.contains name || key == name) := by
    rw [Bool.eq_iff_iff, Bool.or_eq_true, OrderedMap.contains_iff, OrderedMap.contains_iff, beq_iff_eq,
      Policy.notRequiring, OrderedMap.keys_erase, List.mem_filter]
    by_cases hname : name = key
    · simp [hname, hkey]
    · simp [hname, Ne.symm hname]
  have habove : (policy.requiredDirectories.keys.any fun path => Text.startsWith path (name ++ "/")) =
      (((policy.notRequiring key).requiredDirectories.keys.any fun path => Text.startsWith path (name ++ "/")) ||
        Text.startsWith key (name ++ "/")) := by
    rw [Bool.eq_iff_iff, Bool.or_eq_true, List.any_eq_true, List.any_eq_true, Policy.notRequiring,
      OrderedMap.keys_erase]
    constructor
    · rintro ⟨path, hpath, hstarts⟩
      by_cases heq : path = key
      · exact .inr (heq ▸ hstarts)
      · exact .inl ⟨path, List.mem_filter.mpr ⟨hpath, by simpa using heq⟩, hstarts⟩
    · rintro (⟨path, hpath, hstarts⟩ | hstarts)
      · exact ⟨path, (List.mem_filter.mp hpath).1, hstarts⟩
      · exact ⟨key, hkey, hstarts⟩
  rw [isExpectedDirectory, isExpectedDirectory, hrequired, habove, Path.isUnder]
  cases Text.startsWith name "." <;> cases conventionalDirs.contains name <;>
    cases (policy.notRequiring key).requiredDirectories.contains name <;> cases key == name <;> simp

/-- The directory and those above it are unexpected where it is not required. -/
theorem unexpectedDirs_notRequiring (hkey : key ∈ policy.requiredDirectories.keys) :
    unexpectedDirs disk root policy =
      (unexpectedDirs disk root (policy.notRequiring key)).filter fun name => !Path.isUnder key name := by
  rw [unexpectedDirs, unexpectedDirs, List.filter_filter]
  refine List.filter_congr fun name _ => ?_
  rw [isExpectedDirectory_notRequiring hkey, Bool.not_or, Bool.and_comm]

/-! ## Directories of which nothing can be said -/

theorem presence_eq_unknown (h : disk.find? location = .error cause) : presence disk location = .unknown := by
  rw [presence, h]

/-- No file of the unexpected directories is a required one. -/
theorem file_ne_of_mem_unexpectedDirs (hkey : key ∈ policy.requiredDirectories.keys)
    (h : name ∈ unexpectedDirs disk root policy) : name ≠ key := by
  rintro rfl
  have hexpected := (List.mem_filter.mp h).2
  rw [isExpectedDirectory_notRequiring hkey, Path.isUnder_iff.mpr List.prefix_rfl, Bool.or_true] at hexpected
  cases hexpected

/-- Of such a directory no more is reported than that it is unused. -/
theorem requiredReports_unknown (h : disk.find? (root.join key) = .error cause) :
    requiredReports disk root graph [(key, purpose)] =
      if isUsedDirectory graph key then [] else [unusedDirectory key purpose] := by
  have hpresence := presence_eq_unknown h
  cases hused : isUsedDirectory graph key <;>
    simp [requiredReports, hpresence, presenceViolation?, Presence.isMissing, detectUnusedDirectories, hused]

theorem filter_file_checkStructure (hkey : (key, purpose) ∈ policy.requiredDirectories.entries) :
    (checkStructure disk root graph policy).filter (fun v => v.file = key) =
      requiredReports disk root graph [(key, purpose)] := by
  have hunexpected : ((if policy.allowOtherDirectories then []
      else (unexpectedDirs disk root policy).map unexpectedDirectory).filter fun v => v.file = key) = [] := by
    rw [List.filter_eq_nil_iff]
    intro v hv
    split at hv
    · cases hv
    · obtain ⟨name, hname, rfl⟩ := List.mem_map.mp hv
      simp [unexpectedDirectory, file_ne_of_mem_unexpectedDirs (List.mem_map_of_mem hkey) hname]
  rw [checkStructure_of_required (List.ne_nil_of_mem hkey), List.filter_append, hunexpected, List.append_nil,
    filter_requiredReports fun file => decide (file = key), OrderedMap.filter_entries_eq hkey]

/-- The reports on the other required directories are made as if this one were not required. -/
theorem filter_other_checkStructure (disk : Disk) (root : Location) (graph : Graph) (policy : Policy) (key : String) :
    ((checkStructure disk root graph policy).filter fun v => v.kind ≠ .unexpectedDirectory ∧ v.file ≠ key) =
      (checkStructure disk root graph (policy.notRequiring key)).filter fun v => v.kind ≠ .unexpectedDirectory := by
  have hboth : ∀ v : Violation, decide (v.kind ≠ .unexpectedDirectory ∧ v.file ≠ key) =
      (decide (v.file ≠ key) && decide (v.kind ≠ .unexpectedDirectory)) := by
    intro v
    rw [Bool.and_comm, Bool.decide_and]
  have hother : (policy.notRequiring key).requiredDirectories.entries =
      policy.requiredDirectories.entries.filter fun entry => decide (entry.1 ≠ key) := rfl
  simp only [hboth]
  rw [← List.filter_filter, filter_expected_checkStructure, filter_expected_checkStructure, hother]
  exact filter_requiredReports (fun file => decide (file ≠ key)) _

/-- The unexpected directories are then those above this one, too. -/
theorem filter_unexpected_notRequiring (hkey : key ∈ policy.requiredDirectories.keys)
    (hother : ∃ other ∈ policy.requiredDirectories.keys, other ≠ key) :
    ((checkStructure disk root graph policy).filter fun v => v.kind = .unexpectedDirectory) =
      (checkStructure disk root graph (policy.notRequiring key)).filter fun v =>
        v.kind = .unexpectedDirectory ∧ ¬ Path.segments v.file <+: Path.segments key := by
  obtain ⟨entry, hentry, rfl⟩ := List.mem_map.mp hkey
  obtain ⟨other, hkeys, hne⟩ := hother
  obtain ⟨entry', hentry', rfl⟩ := List.mem_map.mp hkeys
  have hmore : (policy.notRequiring entry.1).requiredDirectories.entries ≠ [] :=
    List.ne_nil_of_mem (List.mem_filter.mpr ⟨hentry', by simpa using hne⟩)
  have hboth : ∀ v : Violation,
      decide (v.kind = .unexpectedDirectory ∧ ¬ Path.segments v.file <+: Path.segments entry.1) =
        (!Path.isUnder entry.1 v.file && decide (v.kind = .unexpectedDirectory)) := by
    intro v
    rw [Bool.and_comm, Bool.decide_and]
    congr 1
    rw [Bool.eq_iff_iff, decide_eq_true_eq, ← Path.isUnder_iff, Bool.not_eq_true', Bool.not_eq_true]
  simp only [hboth]
  rw [← List.filter_filter, filter_unexpected_checkStructure (List.ne_nil_of_mem hentry),
    filter_unexpected_checkStructure hmore, unexpectedDirs_notRequiring hkey]
  show _ = (if policy.allowOtherDirectories then [] else _ : List Violation).filter _
  split
  · rfl
  · rw [List.filter_map]
    rfl

/-- **A required directory of which nothing can be said** is reported where it is unused, and only as that. The reports
on the other required directories are those of the policy without it, and where there are others the unexpected
directories are those of that policy which are not above it. -/
theorem checkStructure_unknown (graph : Graph) (hkey : (key, purpose) ∈ policy.requiredDirectories.entries)
    (hunknown : disk.find? (root.join key) = .error cause) :
    let reports := checkStructure disk root graph policy
    let others := checkStructure disk root graph (policy.notRequiring key)
    ((∀ report ∈ reports, report.file ≠ key) ↔ ¬ IsUnused graph key) ∧
      (IsUnused graph key → reports.filter (fun v => v.file = key) = [unusedDirectory key purpose]) ∧
      (reports.filter fun v => v.kind ≠ .unexpectedDirectory ∧ v.file ≠ key) =
        others.filter (fun v => v.kind ≠ .unexpectedDirectory) ∧
      ((∃ other ∈ policy.requiredDirectories.keys, other ≠ key) →
        (reports.filter fun v => v.kind = .unexpectedDirectory) =
          others.filter fun v =>
            v.kind = .unexpectedDirectory ∧ ¬ Path.segments v.file <+: Path.segments key) := by
  have hkeyed : (checkStructure disk root graph policy).filter (fun v => v.file = key) =
      if isUsedDirectory graph key then [] else [unusedDirectory key purpose] := by
    rw [filter_file_checkStructure hkey, requiredReports_unknown hunknown]
  refine ⟨?_, ?_, filter_other_checkStructure disk root graph policy key,
    filter_unexpected_notRequiring (List.mem_map_of_mem hkey)⟩
  · rw [← isUsedDirectory_eq_false_iff, Bool.not_eq_false]
    constructor
    · intro hnone
      by_contra hunused
      rw [if_neg hunused] at hkeyed
      have hreport := hkeyed ▸ List.mem_singleton_self (unusedDirectory key purpose)
      exact hnone _ (List.mem_filter.mp hreport).1 rfl
    · intro hused report hreport hfile
      rw [if_pos hused, List.filter_eq_nil_iff] at hkeyed
      exact hkeyed report hreport (by simpa using hfile)
  · intro hunused
    rw [hkeyed, isUsedDirectory_eq_false_iff.mpr hunused]
    rfl

/-- A project with a package and a link to a name that is too long. -/
def misleadingDisk : Disk :=
  { nodes :=
      [(["pkg"], .directory), (["pkg", "a.go"], .file "package pkg\n".toUTF8), (["gen"], .link (Scan.nameOfSize 256))]
    current := [] }

/-- A policy that requires the package and the link. -/
def misleadingPolicy : Policy := { requiredDirectories := .ofList [("pkg", ""), ("gen", "")] }

theorem mem_misleadingPolicy : ("gen", "") ∈ misleadingPolicy.requiredDirectories.entries := by decide +kernel

theorem find?_misleadingDisk : misleadingDisk.find? (Location.join ⟨false, []⟩ "gen") = .error .nameTooLong := by
  have hname : Disk.IsName (Scan.nameOfSize 256) := Scan.isName_nameOfSize (by decide)
  have hslash : Text.endsWith (Scan.nameOfSize 256) "/" = false := by
    rw [Bool.eq_false_iff, ne_eq, Text.endsWith, List.isSuffixOf_iff_suffix]
    exact fun hsuffix => hname.noSlash (hsuffix.mem (by decide))
  have hlink : Disk.linkSegments (Scan.nameOfSize 256) = [Scan.nameOfSize 256] := by
    rw [Disk.linkSegments, Location.parts_parse_of_isName hname, hslash]
    rfl
  have hlong : Disk.maxName < (Scan.nameOfSize 256).utf8ByteSize := by
    rw [Scan.utf8ByteSize_nameOfSize]
    decide
  have hgen : misleadingDisk.node? ["gen"] = some (.link (Scan.nameOfSize 256)) := rfl
  have hfollow : misleadingDisk.follow true 39 [] [Scan.nameOfSize 256] = .error .nameTooLong := by
    simp [Disk.follow, Disk.followSegments, hname.ne_here, hname.ne_up, hlong]
  have hresolve : misleadingDisk.resolve ⟨false, ["gen"]⟩ true = .error .nameTooLong := by
    have hlength : ¬ Disk.maxPath < (Location.toText ⟨false, ["gen"]⟩).utf8ByteSize := by decide
    have hnul : ¬ (["gen"].any fun part => Text.contains part "\x00") = true := by decide
    have hbyte : ¬ Disk.maxName < "gen".utf8ByteSize := by decide
    rw [Disk.resolve, if_neg hlength, if_neg hnul, Disk.maxLinks, Disk.follow]
    have hcurrent : misleadingDisk.current = [] := rfl
    simp [Disk.followSegments, hbyte, hgen, hlink, hfollow, hcurrent]
  have hjoin : Location.join ⟨false, []⟩ "gen" = ⟨false, ["gen"]⟩ := by decide
  rw [hjoin, Disk.find?, hresolve]

theorem checkStructure_unknown_link :
    ("gen", "") ∈ misleadingPolicy.requiredDirectories.entries ∧
      misleadingDisk.find? (Location.join ⟨false, []⟩ "gen") = .error .nameTooLong ∧
      IsUnused ⟨[], "m"⟩ "gen" ∧
      (checkStructure misleadingDisk ⟨false, []⟩ ⟨[], "m"⟩ misleadingPolicy).filter (fun v => v.file = "gen") =
        [unusedDirectory "gen" ""] := by
  have hunused : IsUnused ⟨[], "m"⟩ "gen" := by simp [IsUnused]
  exact ⟨mem_misleadingPolicy, find?_misleadingDisk, hunused,
    (checkStructure_unknown ⟨[], "m"⟩ mem_misleadingPolicy find?_misleadingDisk).2.1 hunused⟩

/-- **A directory of which nothing can be said is reported**: as unused. -/
theorem checkStructure_unknown_reported : ¬ ∀ (disk : Disk) (root : Location) (graph : Graph) (policy : Policy)
    (key : String) (cause : FileError), key ∈ policy.requiredDirectories.keys →
      disk.find? (root.join key) = .error cause →
        ∀ report ∈ checkStructure disk root graph policy, report.file ≠ key := by
  intro h
  have hpresent : ("gen", "") ∈ misleadingPolicy.requiredDirectories.entries.filter fun entry =>
      !(presence misleadingDisk (Location.join ⟨false, []⟩ entry.1)).isMissing := by
    rw [List.mem_filter, presence_eq_unknown find?_misleadingDisk]
    exact ⟨mem_misleadingPolicy, rfl⟩
  have hreported : unusedDirectory "gen" "" ∈
      checkStructure misleadingDisk ⟨false, []⟩ ⟨[], "m"⟩ misleadingPolicy := by
    rw [checkStructure_of_required (List.ne_nil_of_mem mem_misleadingPolicy)]
    refine List.mem_append_left _ (List.mem_append_right _ (List.mem_map.mpr ⟨("gen", ""), ?_, rfl⟩))
    exact List.mem_filter.mpr ⟨hpresent, rfl⟩
  exact h _ _ _ _ _ _ (List.mem_map_of_mem mem_misleadingPolicy) find?_misleadingDisk _ hreported rfl

end Rule

end LayerLint
