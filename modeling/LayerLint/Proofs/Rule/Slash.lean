import LayerLint.Proofs.Path.Slash
import LayerLint.Proofs.Rule.Imports
import LayerLint.Proofs.Rule.Unknown
import Mathlib.Data.List.Flatten

/-!
# Rules on directories that are written with a slash at the end

The rules compare the directories of a policy with other paths as texts, so that a slash at the end counts.

- An entry of the directory policy or a threshold whose directory has a slash at the end applies to nothing, as if it
  were left out (`validate_renamed_imports`, `validate_renamed_thresholds`).
- A required directory is found on disk with the slash and without it, but no file lies below it, so it is reported as
  unused where it is used (`verdicts_renamed_required`).
- An allowed path with a slash at the end no longer allows the imports of what lies below it
  (`verdicts_allowed_slash`).
-/

namespace LayerLint

/-- What a violation says, leaving slashes at the end of the path aside: its kind and where it is. -/
def Violation.verdict (violation : Violation) : ViolationKind × String :=
  (violation.kind, Path.withoutSlash violation.file)

namespace Policy

/-- The policy without the entry for the imports of a directory. -/
def notConfining (policy : Policy) (directory : String) : Policy :=
  { policy with directoriesImport := policy.directoriesImport.erase directory }

/-- The policy in which the entry for a directory allows other imports. -/
def allowing (policy : Policy) (directory : String) (allowed : List String) : Policy :=
  { policy with directoriesImport := policy.directoriesImport.insert directory allowed }

/-- The policy without the threshold of a directory. -/
def notThresholding (policy : Policy) (directory : String) : Policy :=
  { policy with packageThresholds := policy.packageThresholds.erase directory }

end Policy

/-! ## Lists of which one is part of the other -/

section Lists

variable {α β : Type}

/-- Concatenated lists that are parts of others make the same list only if each is the same. -/
theorem flatMap_eq_iff_of_sublist {f g : α → List β} : ∀ {l : List α}, (∀ a ∈ l, (f a).Sublist (g a)) →
    (l.flatMap g = l.flatMap f ↔ ∀ a ∈ l, g a = f a)
  | [], _ => by simp
  | first :: rest, h => by
    rw [List.forall_mem_cons] at h
    have ih := flatMap_eq_iff_of_sublist h.2
    have hrest := (List.Sublist.flatMap_right rest h.2).length_le
    rw [List.flatMap_cons, List.flatMap_cons, List.forall_mem_cons, ← ih]
    constructor
    · intro heq
      have hlength := congrArg List.length heq
      rw [List.length_append, List.length_append] at hlength
      have hfirst := h.1.eq_of_length (by have := h.1.length_le; omega)
      exact ⟨hfirst.symm, List.append_cancel_left (hfirst ▸ heq)⟩
    · rintro ⟨hfirst, hrest⟩
      rw [hfirst, hrest]

/-- Of two filters, of which one keeps more than the other, the same is made only if they keep the same. -/
theorem map_filter_eq_iff {p q : α → Bool} {f : α → β} {l : List α} (h : ∀ a ∈ l, p a = true → q a = true) :
    (l.filter q).map f = (l.filter p).map f ↔ ∀ a ∈ l, q a = true → p a = true := by
  have hsublist : (l.filter p).Sublist (l.filter q) := by
    have hfilter : l.filter p = (l.filter q).filter p := by
      rw [List.filter_filter]
      refine List.filter_congr fun a ha => ?_
      rw [Bool.eq_iff_iff, Bool.and_eq_true]
      exact ⟨fun hp => ⟨hp, h a ha hp⟩, fun hp => hp.1⟩
    rw [hfilter]
    exact List.filter_sublist
  constructor
  · intro heq a ha hq
    have hlength := congrArg List.length heq
    rw [List.length_map, List.length_map] at hlength
    have hmem := List.mem_filter.mpr ⟨ha, hq⟩
    rw [← hsublist.eq_of_length hlength.symm] at hmem
    exact (List.mem_filter.mp hmem).2
  · intro hall
    rw [List.filter_congr fun a ha => Bool.eq_iff_iff.mpr ⟨hall a ha, h a ha⟩]

end Lists

namespace Rule

variable {disk : Disk} {root : Location} {graph : Graph} {policy : Policy} {key path directory target : String}
  {rows : List PackageCoverage} {project : Option Project} {node : FileNode}

/-! ## Entries of the directory policy -/

section ImportEntry

variable {renamed : OrderedMap String (List String)}

/-- The entry for a directory that is not written with the slash. -/
theorem allowedImports?_renamed (hrenames : policy.directoriesImport.Renames renamed key (key ++ "/"))
    (hdirectory : directory ≠ key ++ "/") :
    ({ policy with directoriesImport := renamed } : Policy).allowedImports? directory (Path.topLevel directory) =
      (policy.notConfining key).allowedImports? directory (Path.topLevel directory) := by
  rw [Policy.allowedImports?, Policy.allowedImports?, hrenames.find?_eq hdirectory,
    hrenames.find?_eq (Path.topLevel_ne_slash key directory)]
  rfl

theorem directory_ne_slash (hbelow : IsUnused graph (key ++ "/")) (hnode : node ∈ graph.nodes) :
    node.directory ≠ key ++ "/" :=
  fun heq => hbelow node hnode (heq ▸ List.prefix_rfl)

theorem checkImports_renamed (hrenames : policy.directoriesImport.Renames renamed key (key ++ "/"))
    (hbelow : IsUnused graph (key ++ "/")) :
    checkImports graph { policy with directoriesImport := renamed } = checkImports graph (policy.notConfining key) := by
  refine List.flatMap_congr fun node hnode => List.flatMap_congr fun target _ => ?_
  rw [checkImport, checkImport, checkDirectoryPolicy, checkDirectoryPolicy,
    allowedImports?_renamed hrenames (directory_ne_slash hbelow hnode)]

/-- The layer of a directory that does not lie below the one with the slash. -/
theorem layerOf?_renamed (hrenames : policy.directoriesImport.Renames renamed key (key ++ "/"))
    (hbelow : ¬ Path.segments (key ++ "/") <+: Path.segments directory) :
    layerOf? directory renamed.keys = layerOf? directory (policy.notConfining key).directoriesImport.keys := by
  have hne : key ++ "/" ≠ directory := fun heq => hbelow (heq ▸ List.prefix_rfl)
  have hnot : ¬ Text.startsWith directory (key ++ "/" ++ "/") = true :=
    fun hstarts => hbelow (Path.startsWith_slash_iff.mp hstarts).1
  have hkeys : ∀ keeps : String → Bool, ¬ keeps (key ++ "/") = true →
      renamed.keys.filter keeps = (policy.notConfining key).directoriesImport.keys.filter keeps := by
    intro keeps hkeeps
    rw [hrenames.keys_eq, Policy.notConfining, OrderedMap.keys_erase]
    induction policy.directoriesImport.keys with
    | nil => rfl
    | cons first rest ih =>
      by_cases hfirst : first = key
      · rw [List.map_cons, if_pos hfirst, List.filter_cons_of_neg hkeeps, ih,
          List.filter_cons_of_neg (by simpa using hfirst)]
      · rw [List.map_cons, if_neg hfirst, List.filter_cons, ih, List.filter_cons_of_pos (by simpa using hfirst),
          List.filter_cons]
  have hcontains : renamed.keys.contains directory =
      (policy.notConfining key).directoriesImport.keys.contains directory := by
    have hsame := hkeys (· == directory) (by simpa using hne)
    rw [Bool.eq_iff_iff, List.contains_iff_mem, List.contains_iff_mem]
    have hmem : ∀ keys : List String, directory ∈ keys ↔ directory ∈ keys.filter (· == directory) := by simp
    rw [hmem, hsame, ← hmem]
  rw [layerOf?, layerOf?, hcontains, hkeys _ hnot]

theorem detectSharedImports_renamed (hrenames : policy.directoriesImport.Renames renamed key (key ++ "/"))
    (hbelow : IsUnused graph (key ++ "/")) :
    detectSharedImports graph { policy with directoriesImport := renamed } =
      detectSharedImports graph (policy.notConfining key) := by
  have hplaces : thirdPartyImports graph renamed.keys =
      thirdPartyImports graph (policy.notConfining key).directoriesImport.keys :=
    List.flatMap_congr fun node hnode => by rw [layerOf?_renamed hrenames (hbelow node hnode)]
  rw [detectSharedImports, detectSharedImports, hplaces]
  rfl

/-- **An entry for a directory with a slash at the end is as good as none.** -/
theorem validate_renamed_imports (hrenames : policy.directoriesImport.Renames renamed key (key ++ "/"))
    (hbelow : IsUnused graph (key ++ "/")) :
    validate graph { policy with directoriesImport := renamed } rows project =
      validate graph (policy.notConfining key) rows project := by
  unfold validate
  rw [checkImports_renamed hrenames hbelow, detectSharedImports_renamed hrenames hbelow]
  rfl

end ImportEntry

/-! ## Thresholds -/

section Threshold

variable {renamed : OrderedMap String Binary64} {segments : List String}

theorem nearestValue?_renamed (hrenames : policy.packageThresholds.Renames renamed key (key ++ "/"))
    (hslash : ∀ segment ∈ segments, '/' ∉ segment.toList) (hempty : "" ∉ segments) (hne : segments ≠ []) :
    ∀ n, nearestValue? renamed segments n = nearestValue? (policy.packageThresholds.erase key) segments n
  | 0 => rfl
  | n + 1 => by
    have hleading : leadingPath segments (n + 1) ≠ key ++ "/" := by
      intro heq
      have htake : segments.take (n + 1) ≠ [] := by simpa using hne
      have hsegments := Path.segments_join htake fun segment hsegment => hslash segment (List.mem_of_mem_take hsegment)
      rw [← leadingPath, heq] at hsegments
      have hstarts : Path.segments (key ++ "/") <+: segments := hsegments ▸ List.take_prefix _ _
      exact Path.not_prefix_of_slash hempty hstarts
    rw [nearestValue?, nearestValue?, hrenames.find?_eq hleading,
      nearestValue?_renamed hrenames hslash hempty hne n]

/-- **A threshold of a directory with a slash at the end is as good as none** for packages whose paths have no empty
segment. -/
theorem validate_renamed_thresholds (hrenames : policy.packageThresholds.Renames renamed key (key ++ "/"))
    (hrows : ∀ row ∈ rows, "" ∉ Path.segments (pathOfPackage row.packagePath policy.modulePath)) :
    validate graph { policy with packageThresholds := renamed } rows project =
      validate graph (policy.notThresholding key) rows project := by
  have hcoverage : checkCoverage { policy with packageThresholds := renamed } rows =
      checkCoverage (policy.notThresholding key) rows := by
    refine List.flatMap_congr fun row hrow => ?_
    have hthreshold := nearestValue?_renamed hrenames (fun _ => Path.not_mem_of_mem_segments) (hrows row hrow)
      (Path.segments_ne_nil _)
    rw [checkPackageCoverage, checkPackageCoverage, thresholdOf, thresholdOf, hthreshold]
    rfl
  unfold validate
  rw [hcoverage]
  rfl

end Threshold

/-! ## Required directories -/

section Required

variable {renamed : OrderedMap String String} {entry : String × String}

/-- The entry of a directory is written with the slash. -/
def addSlash (key : String) (entry : String × String) : String × String :=
  if entry.1 = key then (key ++ "/", entry.2) else entry

theorem addSlash_of_eq (h : entry.1 = key) : addSlash key entry = (entry.1 ++ "/", entry.2) := by
  rw [addSlash, if_pos h, h]

theorem addSlash_of_ne (h : entry.1 ≠ key) : addSlash key entry = entry := if_neg h

/-- The directory is found in the same way. -/
theorem presence_addSlash (hkey : key ≠ "") (entry : String × String) :
    presence disk (root.join (addSlash key entry).1) = presence disk (root.join entry.1) := by
  by_cases h : entry.1 = key
  · rw [addSlash_of_eq h, Location.join_slash root (h ▸ hkey)]
  · rw [addSlash_of_ne h]

theorem verdict_presenceViolation? (key : String) (entry : String × String) (presence : Presence) :
    (presenceViolation? (addSlash key entry).1 (addSlash key entry).2 presence).map Violation.verdict =
      (presenceViolation? entry.1 entry.2 presence).map Violation.verdict := by
  by_cases h : entry.1 = key
  · rw [addSlash_of_eq h]
    cases presence <;> simp [presenceViolation?, Violation.verdict]
  · rw [addSlash_of_ne h]

theorem verdict_unusedDirectory (key : String) (entry : String × String) :
    (unusedDirectory (addSlash key entry).1 (addSlash key entry).2).verdict =
      (unusedDirectory entry.1 entry.2).verdict := by
  by_cases h : entry.1 = key
  · simp [addSlash_of_eq h, unusedDirectory, Violation.verdict]
  · rw [addSlash_of_ne h]

/-- The verdicts on how required directories are found. -/
def foundVerdicts (disk : Disk) (root : Location) (required : List (String × String)) :
    List (ViolationKind × String) :=
  (required.filterMap fun entry => presenceViolation? entry.1 entry.2 (presence disk (root.join entry.1))).map
    Violation.verdict

theorem foundVerdicts_addSlash (hkey : key ≠ "") (required : List (String × String)) :
    foundVerdicts disk root (required.map (addSlash key)) = foundVerdicts disk root required := by
  rw [foundVerdicts, foundVerdicts, List.filterMap_map, List.map_filterMap, List.map_filterMap]
  refine List.filterMap_congr fun entry _ => ?_
  rw [Function.comp_apply, presence_addSlash hkey, verdict_presenceViolation?]

/-- A required directory that is not missing is reported as unused. -/
def isReportedUnused (disk : Disk) (root : Location) (graph : Graph) (entry : String × String) : Bool :=
  !isUsedDirectory graph entry.1 && !(presence disk (root.join entry.1)).isMissing

theorem isReportedUnused_iff : isReportedUnused disk root graph entry = true ↔
    IsUnused graph entry.1 ∧ ¬ IsMissing disk (root.join entry.1) := by
  rw [isReportedUnused, Bool.and_eq_true, Bool.not_eq_true', Bool.not_eq_true', isUsedDirectory_eq_false_iff,
    ← isMissing_presence, Bool.not_eq_true]

theorem map_verdict_requiredReports (required : List (String × String)) :
    (requiredReports disk root graph required).map Violation.verdict =
      foundVerdicts disk root required ++ (required.filter (isReportedUnused disk root graph)).map fun entry =>
        (unusedDirectory entry.1 entry.2).verdict := by
  rw [requiredReports, List.map_append, detectUnusedDirectories, List.filter_filter, List.map_map]
  rfl

/-- With the slash a directory is never used. -/
theorem isReportedUnused_addSlash (hkey : key ≠ "") (hbelow : IsUnused graph (key ++ "/")) :
    isReportedUnused disk root graph (addSlash key entry) = true ↔
      (entry.1 = key ∨ IsUnused graph entry.1) ∧ ¬ IsMissing disk (root.join entry.1) := by
  by_cases h : entry.1 = key
  · rw [isReportedUnused_iff, addSlash_of_eq h, Location.join_slash root (h ▸ hkey), h]
    simp [hbelow]
  · rw [isReportedUnused_iff, addSlash_of_ne h]
    simp [h]

/-- **A required directory is found with the slash as without it**, but with the slash it is never used. -/
theorem verdicts_renamed_requiredReports (hrenames : policy.requiredDirectories.Renames renamed key (key ++ "/"))
    (hkey : key ≠ "") (hbelow : IsUnused graph (key ++ "/")) :
    (requiredReports disk root graph renamed.entries).map Violation.verdict =
        (requiredReports disk root graph policy.requiredDirectories.entries).map Violation.verdict ↔
      IsMissing disk (root.join key) ∨ IsUnused graph key := by
  have hentries : renamed.entries = policy.requiredDirectories.entries.map (addSlash key) := hrenames.entries
  have hunused : ((renamed.entries.filter (isReportedUnused disk root graph)).map fun entry =>
        (unusedDirectory entry.1 entry.2).verdict) =
      (policy.requiredDirectories.entries.filter fun entry =>
        isReportedUnused disk root graph (addSlash key entry)).map fun entry =>
          (unusedDirectory entry.1 entry.2).verdict := by
    rw [hentries, List.filter_map, List.map_map]
    exact List.map_congr_left fun entry _ => verdict_unusedDirectory key entry
  have hmore : ∀ entry ∈ policy.requiredDirectories.entries, isReportedUnused disk root graph entry = true →
      isReportedUnused disk root graph (addSlash key entry) = true := by
    intro entry _ h
    rw [isReportedUnused_addSlash hkey hbelow]
    exact (isReportedUnused_iff.mp h).imp_left .inr
  rw [map_verdict_requiredReports, map_verdict_requiredReports, hunused, hentries, foundVerdicts_addSlash hkey,
    List.append_right_inj, map_filter_eq_iff hmore]
  simp only [isReportedUnused_addSlash hkey hbelow, isReportedUnused_iff]
  constructor
  · intro hall
    obtain ⟨entry, hentry, rfl⟩ := List.mem_map.mp hrenames.mem
    by_cases hmissing : IsMissing disk (root.join entry.1)
    · exact .inl hmissing
    · exact .inr (hall entry hentry ⟨.inl rfl, hmissing⟩).1
  · rintro hharmless entry - ⟨rfl | hunused, hthere⟩
    · exact ⟨hharmless.resolve_left hthere, hthere⟩
    · exact ⟨hunused, hthere⟩

/-- A top-level directory is accounted for by a required directory that is written with the slash as by one without. -/
theorem unexpectedDirs_renamed (hdisk : disk.IsNamed)
    (hrenames : policy.requiredDirectories.Renames renamed key (key ++ "/")) :
    unexpectedDirs disk root { policy with requiredDirectories := renamed } = unexpectedDirs disk root policy := by
  have hne : key ++ "/" ≠ key := by
    intro heq
    have hlength := congrArg String.length heq
    rw [String.length_append] at hlength
    have hslash : "/".length = 1 := by decide
    omega
  have hnew : key ++ "/" ∈ renamed.keys := by
    rw [hrenames.keys_eq]
    exact List.mem_map.mpr ⟨key, hrenames.mem, if_pos rfl⟩
  have hothers : ({ policy with requiredDirectories := renamed } : Policy).notRequiring (key ++ "/") =
      policy.notRequiring key := by
    rw [Policy.notRequiring, Policy.notRequiring, hrenames.erase_eq hne]
  refine List.filter_congr fun name hname => ?_
  obtain ⟨directory, -, hlisted, -⟩ := mem_topLevelDirs_iff.mp hname
  obtain ⟨node, hnode⟩ := Disk.mem_names_iff.mp hlisted
  have hslash : '/' ∉ name.toList := (hdisk _ hnode name (by simp)).noSlash
  have hunder : Path.isUnder (key ++ "/") name = Path.isUnder key name := by
    rw [Bool.eq_iff_iff, Path.isUnder_iff, Path.isUnder_iff, Path.segments_of_not_mem hslash, Path.segments_slash]
    obtain ⟨first, rest, hsegments⟩ := List.exists_cons_of_ne_nil (Path.segments_ne_nil key)
    rw [hsegments, List.cons_append, List.cons_prefix_cons, List.cons_prefix_cons]
    simp
  rw [isExpectedDirectory_notRequiring hnew, hothers, isExpectedDirectory_notRequiring hrenames.mem, hunder]

/-- **A required directory with a slash at the end changes the verdicts just where it is used.** -/
theorem verdicts_renamed_required (hdisk : disk.IsNamed)
    (hrenames : policy.requiredDirectories.Renames renamed key (key ++ "/")) (hkey : key ≠ "")
    (hbelow : IsUnused graph (key ++ "/")) :
    (checkStructure disk root graph { policy with requiredDirectories := renamed }).map Violation.verdict =
        (checkStructure disk root graph policy).map Violation.verdict ↔
      IsMissing disk (root.join key) ∨ IsUnused graph key := by
  have hsome : policy.requiredDirectories.entries ≠ [] := by
    obtain ⟨entry, hentry, -⟩ := List.mem_map.mp hrenames.mem
    exact List.ne_nil_of_mem hentry
  have hrenamed : renamed.entries ≠ [] := by
    rw [hrenames.entries]
    simpa using hsome
  rw [checkStructure_of_required hrenamed, checkStructure_of_required hsome, unexpectedDirs_renamed hdisk hrenames,
    List.map_append, List.map_append, List.append_left_inj, verdicts_renamed_requiredReports hrenames hkey hbelow]

/-- The same of all rules. -/
theorem verdicts_validate_renamed_required (hdisk : disk.IsNamed)
    (hrenames : policy.requiredDirectories.Renames renamed key (key ++ "/")) (hkey : key ≠ "")
    (hbelow : IsUnused graph (key ++ "/")) :
    (validate graph { policy with requiredDirectories := renamed } rows (some ⟨disk, root⟩)).map Violation.verdict =
        (validate graph policy rows (some ⟨disk, root⟩)).map Violation.verdict ↔
      IsMissing disk (root.join key) ∨ IsUnused graph key := by
  rw [← verdicts_renamed_required hdisk hrenames hkey hbelow]
  refine Run.map_violations_eq_iff Violation.verdict graph ⟨policy, rows, some ⟨disk, root⟩⟩
    ⟨{ policy with requiredDirectories := renamed }, rows, some ⟨disk, root⟩⟩ .directories fun other hother => ?_
  cases other with
  | directories => exact absurd rfl hother
  | imports | sharedImports | unusedPackages | testLocations | blackboxTests | coverage | testNaming => rfl

end Required

/-! ## Allowed paths -/

section AllowedPath

variable {allowed fewer before after : List String}

/-- The import of a local path is checked by the entry for a directory. -/
def IsSubjectTo (policy : Policy) (key : String) (node : FileNode) (target : String) : Prop :=
  ¬(IsBlackboxTest node ∧ target = node.directory) ∧
    ∃ allowed, ruleFor? policy node.directory = some (key, allowed)

/-- One of the allowed paths is the path, or lies above it. -/
def Allows (allowed : List String) (target : String) : Prop :=
  ∃ lead ∈ allowed, Path.segments lead <+: Path.segments target

instance (allowed : List String) (target : String) : Decidable (Allows allowed target) :=
  inferInstanceAs (Decidable (∃ lead ∈ allowed, Path.segments lead <+: Path.segments target))

theorem policyFaults_eq_ite (h : ruleFor? policy directory = some (key, allowed)) :
    policyFaults policy directory (Path.segments target) =
      if Allows allowed target then [] else [.forbidden key allowed] := by
  rw [policyFaults, h]
  rfl

theorem find?_of_ruleFor? (h : ruleFor? policy directory = some (key, allowed)) :
    policy.directoriesImport.find? key = some allowed := by
  obtain ⟨other, -, hother⟩ := List.exists_of_findSome?_eq_some h
  obtain ⟨found, hfound, heq⟩ := Option.map_eq_some_iff.mp hother
  cases heq
  exact hfound

theorem ruleFor?_allowing (hkey : policy.directoriesImport.find? key = some allowed) (directory : String)
    (fewer : List String) : ruleFor? (policy.allowing key fewer) directory =
      (ruleFor? policy directory).map fun rule => if rule.1 = key then (key, fewer) else rule := by
  have hfound : ∀ other, ((policy.allowing key fewer).directoriesImport.find? other).map (other, ·) =
      ((policy.directoriesImport.find? other).map (other, ·)).map fun rule =>
        if rule.1 = key then (key, fewer) else rule := by
    intro other
    rw [Policy.allowing, OrderedMap.find?_insert, Option.map_map]
    by_cases hother : other = key
    · simp [hother, hkey]
    · simp [hother, Function.comp_def]
  simp only [ruleFor?, List.findSome?_cons, List.findSome?_nil, hfound]
  cases policy.directoriesImport.find? directory with
  | some allowed => rfl
  | none => cases policy.directoriesImport.find? (Path.topLevel directory) <;> rfl

/-- **An entry that allows less finds more**: what it finds wrong with an import is the same only if the import is not
checked by it, or is allowed as before. -/
theorem verdicts_checkImport_allowing (node : FileNode)
    (hkey : policy.directoriesImport.find? key = some allowed) (hfewer : Allows fewer target → Allows allowed target) :
    ((checkImport policy node target).map Violation.verdict).Sublist
        ((checkImport (policy.allowing key fewer) node target).map Violation.verdict) ∧
      ((checkImport (policy.allowing key fewer) node target).map Violation.verdict =
          (checkImport policy node target).map Violation.verdict ↔
        (IsSubjectTo policy key node target → Allows allowed target → Allows fewer target)) := by
  rw [checkImport_eq_reports, checkImport_eq_reports, importFaults, importFaults]
  by_cases hexempt : IsBlackboxTest node ∧ target = node.directory
  · simp [hexempt, IsSubjectTo]
  · rw [if_neg hexempt, if_neg hexempt]
    simp only [List.map_append, List.append_right_inj, List.append_sublist_append_left]
    cases hrule : ruleFor? policy node.directory with
    | none => simp [policyFaults, ruleFor?_allowing hkey, IsSubjectTo, hrule]
    | some rule =>
      obtain ⟨other, found⟩ := rule
      have hafter := ruleFor?_allowing hkey node.directory fewer
      rw [hrule, Option.map_some] at hafter
      by_cases hother : other = key
      · subst hother
        obtain rfl := Option.some.inj (hkey.symm.trans (find?_of_ruleFor? hrule))
        rw [if_pos rfl] at hafter
        have hsubject : IsSubjectTo policy other node target := ⟨hexempt, _, hrule⟩
        rw [policyFaults_eq_ite hrule, policyFaults_eq_ite hafter]
        by_cases hallows : Allows fewer target
        · simp [hallows, hfewer hallows]
        · by_cases hbefore : Allows allowed target
          · simp [hallows, hbefore, hsubject]
          · simp [hallows, hbefore, ImportFault.report, ImportFault.kind, Violation.verdict]
      · rw [if_neg hother] at hafter
        have hsubject : ¬ IsSubjectTo policy key node target := by
          rintro ⟨-, found', hrule'⟩
          rw [hrule] at hrule'
          exact hother (congrArg Prod.fst (Option.some.inj hrule'))
        simp [policyFaults_eq_ite hrule, policyFaults_eq_ite hafter, hsubject]

theorem verdicts_checkImports_allowing (hkey : policy.directoriesImport.find? key = some allowed)
    (hfewer : ∀ target, Allows fewer target → Allows allowed target) :
    (checkImports graph (policy.allowing key fewer)).map Violation.verdict =
        (checkImports graph policy).map Violation.verdict ↔
      ∀ node ∈ graph.nodes, ∀ target ∈ node.localPaths,
        IsSubjectTo policy key node target → Allows allowed target → Allows fewer target := by
  have himport := fun node target => verdicts_checkImport_allowing node hkey (hfewer target)
  have hnode : ∀ node : FileNode, (node.localPaths.flatMap fun target =>
      (checkImport policy node target).map Violation.verdict).Sublist (node.localPaths.flatMap fun target =>
        (checkImport (policy.allowing key fewer) node target).map Violation.verdict) :=
    fun node => List.Sublist.flatMap_right _ fun target _ => (himport node target).1
  simp only [checkImports, checkFile, List.map_flatMap]
  rw [flatMap_eq_iff_of_sublist fun node _ => hnode node]
  refine forall₂_congr fun node _ => ?_
  rw [flatMap_eq_iff_of_sublist fun target _ => (himport node target).1]
  exact forall₂_congr fun target _ => (himport node target).2

/-- What is allowed by paths of which one is written with a slash is allowed without it. -/
theorem Allows.of_slash (h : Allows (before ++ (path ++ "/") :: after) target) :
    Allows (before ++ path :: after) target := by
  obtain ⟨lead, hlead, hstarts⟩ := h
  simp only [List.mem_append, List.mem_cons] at hlead
  rcases hlead with hbefore | rfl | hafter
  · exact ⟨lead, List.mem_append_left _ hbefore, hstarts⟩
  · exact ⟨path, by simp, Path.prefix_of_slash hstarts⟩
  · exact ⟨lead, by simp [hafter], hstarts⟩

/-- **An allowed path with a slash at the end changes the verdicts just where an import is no longer allowed.** -/
theorem verdicts_allowed_slash (hkey : policy.directoriesImport.find? key = some (before ++ path :: after)) :
    (validate graph (policy.allowing key (before ++ (path ++ "/") :: after)) rows project).map Violation.verdict =
        (validate graph policy rows project).map Violation.verdict ↔
      ∀ node ∈ graph.nodes, ∀ target ∈ node.localPaths, IsSubjectTo policy key node target →
        Allows (before ++ path :: after) target → Allows (before ++ (path ++ "/") :: after) target := by
  rw [← verdicts_checkImports_allowing hkey fun target => Allows.of_slash]
  refine Run.map_violations_eq_iff Violation.verdict graph ⟨policy, rows, project⟩
    ⟨policy.allowing key (before ++ (path ++ "/") :: after), rows, project⟩ .imports fun other hother => ?_
  cases other with
  | imports => exact absurd rfl hother
  | sharedImports =>
    have hkeys : (policy.allowing key (before ++ (path ++ "/") :: after)).directoriesImport.keys =
        policy.directoriesImport.keys := OrderedMap.keys_insert_of_mem (OrderedMap.mem_keys_of_find? hkey)
    rw [Pass.violations, Pass.violations, detectSharedImports, detectSharedImports, hkeys]
    rfl
  | directories | unusedPackages | testLocations | blackboxTests | coverage | testNaming => rfl

end AllowedPath

end Rule

end LayerLint
