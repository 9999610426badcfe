import LayerLint.Proofs.Disk.Walk
import LayerLint.Proofs.OrderedMap
import LayerLint.Proofs.Path.Segments
import LayerLint.Rule.Structure

/-!
# Required directories and all others

A required directory is missing (`IsMissing`), or it has no source file in it or below it (`HoldsSource`), or it is in
order; `ReportsOn` says what is reported of it. Those that are not missing are unused where no file of the graph lies
below them, and a directory at the root is unexpected that is neither hidden, conventional, required nor above a
required one (`IsUnexpected`). The rule reports just these, in this order (`checkStructure_reports`).
-/

namespace LayerLint

namespace Disk

/-- What stands at a location, and at each directory below it, can be said. -/
structure IsAccessible (disk : Disk) (location : Location) : Prop where
  here : ∃ found, disk.find? location = .ok found
  below : ∀ directory way, disk.directory? location = some directory → disk.Reaches directory (fun _ => true) way →
    ∃ found, disk.find? (location.below way) = .ok found

variable {disk : Disk} {location : Location} {path : List String}

theorem isListable_of_find? {found : Option Node} (h : disk.find? location = .ok found) : location.IsListable := by
  by_contra hlong
  rw [find?, resolve, if_pos (Nat.not_le.mp hlong)] at h
  cases h

/-- It is enough to ask for what stands on the disk. -/
theorem isAccessible_of_nodes (hhere : (disk.find? location).toOption.isSome = true)
    (hbelow : ∀ entry ∈ disk.nodes, ∀ directory ∈ disk.directory? location, directory <+: entry.1 →
      (disk.find? (location.below (entry.1.drop directory.length))).toOption.isSome = true) :
    disk.IsAccessible location := by
  have hfound : ∀ {x : Except FileError (Option Node)}, x.toOption.isSome = true → ∃ found, x = .ok found := by
    intro x h
    cases x with
    | error cause => cases h
    | ok found => exact ⟨found, rfl⟩
  refine ⟨hfound hhere, fun directory way hdirectory hreaches => hfound ?_⟩
  cases hreaches with
  | here =>
    rw [Location.below, List.append_nil]
    exact hhere
  | @into way name _ hnode _ =>
    rw [List.append_assoc, node?, if_neg (by simp)] at hnode
    obtain ⟨before, after, hnodes, -⟩ := List.lookup_eq_some_iff.mp hnode
    have hfind := hbelow (directory ++ (way ++ [name]), .directory) (by simp [hnodes]) directory hdirectory
      (List.prefix_append _ _)
    rwa [List.drop_left] at hfind

/-- A directory is what is found at a location that leads to it. -/
theorem isSome_directory?_iff : (disk.directory? location).isSome = true ↔
    disk.find? location = .ok (some .directory) := by
  unfold directory? find?
  cases hresolve : disk.resolve location true with
  | error cause => cases cause <;> simp
  | ok target =>
    cases target with
    | absent path => simp
    | present path => by_cases hnode : disk.node? path = some .directory <;> simp [hnode]

/-- Each name stands once in a directory. -/
theorem nodup_names (hdistinct : (disk.nodes.map Prod.fst).Nodup) (path : List String) : (disk.names path).Nodup := by
  rw [List.Nodup, List.pairwise_map] at hdistinct
  unfold names
  rw [List.Nodup, List.pairwise_filterMap]
  refine hdistinct.imp fun {entry entry'} hne name hname name' hname' heq => hne ?_
  -- On a disk of one entry, that entry is what a name of the directory stands for.
  have hpath : ∀ {entry : List String × Node} {name : String},
      name ∈ names { disk with nodes := [entry] } path → entry.1 = path ++ [name] := by
    intro entry name h
    obtain ⟨node, hmem⟩ := mem_names_iff.mp h
    rw [← List.mem_singleton.mp hmem]
  have hentry : entry.1 = path ++ [name] := hpath (List.mem_filterMap.mpr ⟨_, List.mem_singleton_self _, hname⟩)
  have hentry' : entry'.1 = path ++ [name'] := hpath (List.mem_filterMap.mpr ⟨_, List.mem_singleton_self _, hname'⟩)
  rw [hentry, hentry', heq]

end Disk

namespace Rule

open Disk

variable {disk : Disk} {root location : Location} {graph : Graph} {policy : Policy} {entry : String × String}
  {name : String}

/-! ## What stands at a required directory -/

/-- What is found at the location is nothing, or no directory. -/
def IsMissing (disk : Disk) (location : Location) : Prop :=
  ∃ found, disk.find? location = .ok found ∧ found ≠ some .directory

/-- The directory at the location holds a source file that is no test, or a real directory below it does. -/
def HoldsSource (disk : Disk) (location : Location) : Prop :=
  ∃ directory way name, disk.directory? location = some directory ∧ disk.Reaches directory (fun _ => true) way ∧
    disk.isFileEntry (location.below (way ++ [name])) (disk.node? (directory ++ way ++ [name])) = true ∧
      Text.endsWith name ".go" = true ∧ Text.endsWith name "_test.go" = false

theorem isSourceName_iff : isSourceName name = true ↔
    Text.endsWith name ".go" = true ∧ Text.endsWith name "_test.go" = false := by
  rw [isSourceName, Bool.and_eq_true, Bool.not_eq_true']
  rfl

/-- **The search for a source file finds one where there is one.** -/
theorem containsSource_iff (h : disk.IsAccessible location) :
    containsSource disk location = true ↔ HoldsSource disk location := by
  unfold containsSource HoldsSource
  cases hdirectory : disk.directory? location with
  | none => simp
  | some directory =>
    simp only [List.any_eq_true, mem_filesBelow_iff]
    constructor
    · rintro ⟨path, ⟨way, name, hreaches, hholds, rfl⟩, hsource⟩
      rw [List.getLastD_concat, isSourceName_iff] at hsource
      exact ⟨directory, way, name, rfl, hreaches, hholds.file, hsource⟩
    · rintro ⟨directory', way, name, heq, hreaches, hfile, hsource⟩
      obtain rfl := Option.some.inj heq
      obtain ⟨found, hfound⟩ := h.below directory way hdirectory hreaches
      refine ⟨way ++ [name], ⟨way, name, hreaches, ⟨isListable_of_find? hfound, hfile⟩, rfl⟩, ?_⟩
      rw [List.getLastD_concat]
      exact isSourceName_iff.mpr hsource

/-- The report is of a kind, about a required directory and with its purpose. -/
structure IsAbout (kind : ViolationKind) (entry : String × String) (report : Violation) : Prop where
  kind : report.kind = kind
  file : report.file = entry.1
  rule : report.rule = purposeRule entry.2

/-- What is reported of how a required directory is found: that it is missing or else that it is empty, if either. -/
inductive ReportsOn (disk : Disk) (root : Location) (entry : String × String) : List Violation → Prop where
  | missing {report : Violation} (h : IsMissing disk (root.join entry.1))
      (hreport : IsAbout .missingDirectory entry report) : ReportsOn disk root entry [report]
  | empty {report : Violation} (h : disk.find? (root.join entry.1) = .ok (some .directory))
      (hnone : ¬ HoldsSource disk (root.join entry.1)) (hreport : IsAbout .emptyDirectory entry report) :
      ReportsOn disk root entry [report]
  | filled (h : disk.find? (root.join entry.1) = .ok (some .directory))
      (hsource : HoldsSource disk (root.join entry.1)) : ReportsOn disk root entry []

theorem reportsOn_presence (h : disk.IsAccessible (root.join entry.1)) :
    ReportsOn disk root entry (presenceViolation? entry.1 entry.2 (presence disk (root.join entry.1))).toList := by
  obtain ⟨found, hfound⟩ := h.here
  rw [presence, hfound]
  match found, hfound with
  | none, hfound => exact .missing ⟨none, hfound, by simp⟩ ⟨rfl, rfl, rfl⟩
  | some (.file content), hfound => exact .missing ⟨_, hfound, by simp⟩ ⟨rfl, rfl, rfl⟩
  | some (.link target), hfound => exact .missing ⟨_, hfound, by simp⟩ ⟨rfl, rfl, rfl⟩
  | some .directory, hfound =>
    by_cases hsource : containsSource disk (root.join entry.1) = true
    · simpa only [hsource, if_true] using .filled hfound ((containsSource_iff h).mp hsource)
    · simpa only [hsource, if_false] using
        .empty hfound (mt (containsSource_iff h).mpr hsource) ⟨rfl, rfl, rfl⟩

/-- A required directory counts as missing where it is. -/
theorem isMissing_presence : (presence disk location).isMissing = true ↔ IsMissing disk location := by
  unfold IsMissing presence
  cases hfound : disk.find? location with
  | error cause => simp [Presence.isMissing]
  | ok found =>
    match found with
    | none | some (.file _) | some (.link _) => simp [Presence.isMissing]
    | some .directory => by_cases hsource : containsSource disk location = true <;> simp [hsource, Presence.isMissing]

/-! ## Unused and unexpected directories -/

/-- No file of the graph lies in the directory or below it. -/
def IsUnused (graph : Graph) (directory : String) : Prop :=
  ∀ node ∈ graph.nodes, ¬ Path.segments directory <+: Path.segments node.directory

theorem isUsedDirectory_eq_false_iff {directory : String} :
    isUsedDirectory graph directory = false ↔ IsUnused graph directory := by
  simp only [isUsedDirectory, List.any_eq_false, Path.isUnder_iff, IsUnused]

/-- A directory, or a link to one, stands at the root. -/
def IsTopLevelDir (disk : Disk) (root : Location) (name : String) : Prop :=
  ∃ directory, disk.directory? root = some directory ∧ name ∈ disk.names directory ∧
    disk.find? (root.join name) = .ok (some .directory)

/-- A directory at the root that the required directories do not account for. -/
structure IsUnexpected (disk : Disk) (root : Location) (required : List String) (name : String) : Prop where
  isDirectory : IsTopLevelDir disk root name
  notHidden : Text.startsWith name "." = false
  notConventional : name ≠ "vendor" ∧ name ≠ "testdata"
  notRequired : name ∉ required
  /-- It is not the first segment of a longer path. -/
  notAbove : ∀ path ∈ required, ∀ next more, Path.segments path ≠ name :: next :: more

theorem mem_topLevelDirs_iff : name ∈ topLevelDirs disk root ↔ IsTopLevelDir disk root name := by
  unfold topLevelDirs IsTopLevelDir
  cases disk.directory? root with
  | none => simp
  | some directory => simp [Text.sort, isSome_directory?_iff]

/-- The directories at the root are listed in the order of their names, each once. -/
theorem pairwise_topLevelDirs (hdistinct : (disk.nodes.map Prod.fst).Nodup) (root : Location) :
    (topLevelDirs disk root).Pairwise (· < ·) := by
  unfold topLevelDirs
  split
  · exact (Text.pairwise_sort (nodup_names hdistinct _)).filter _
  · exact .nil

/-- A path goes on behind a name just if it begins with the name and a slash. -/
theorem startsWith_slash_iff_segments {path : String} (hname : '/' ∉ name.toList) :
    Text.startsWith path (name ++ "/") = true ↔ ∃ next more, Path.segments path = name :: next :: more := by
  rw [Path.startsWith_slash_iff, Path.segments_of_not_mem hname]
  constructor
  · rintro ⟨⟨rest, hrest⟩, hne⟩
    cases rest with
    | nil => exact absurd (Path.segments_injective ((Path.segments_of_not_mem hname).trans hrest)) hne
    | cons next more => exact ⟨next, more, hrest.symm⟩
  · rintro ⟨next, more, hsegments⟩
    refine ⟨⟨next :: more, hsegments.symm⟩, ?_⟩
    rintro rfl
    rw [Path.segments_of_not_mem hname] at hsegments
    cases hsegments

/-- **The unexpected directories** are those that nothing accounts for. -/
theorem isUnexpected_iff (hdisk : disk.IsNamed) : IsUnexpected disk root policy.requiredDirectories.keys name ↔
    IsTopLevelDir disk root name ∧ isExpectedDirectory policy name = false := by
  have hslash : IsTopLevelDir disk root name → '/' ∉ name.toList := by
    rintro ⟨directory, -, hname, -⟩
    obtain ⟨node, hmem⟩ := mem_names_iff.mp hname
    exact (hdisk _ hmem name (by simp)).noSlash
  have hexpected : IsTopLevelDir disk root name → (isExpectedDirectory policy name = false ↔
      Text.startsWith name "." = false ∧ (name ≠ "vendor" ∧ name ≠ "testdata") ∧
        name ∉ policy.requiredDirectories.keys ∧
          ∀ path ∈ policy.requiredDirectories.keys, ∀ next more, Path.segments path ≠ name :: next :: more) := by
    intro hdirectory
    rw [isExpectedDirectory, Bool.or_eq_false_iff, Bool.or_eq_false_iff, Bool.or_eq_false_iff, List.any_eq_false,
      and_assoc, and_assoc, ← Bool.not_eq_true (policy.requiredDirectories.contains name), OrderedMap.contains_iff]
    simp only [startsWith_slash_iff_segments (hslash hdirectory), not_exists, ne_eq]
    simp [conventionalDirs]
  constructor
  · intro h
    exact ⟨h.isDirectory, (hexpected h.isDirectory).mpr ⟨h.notHidden, h.notConventional, h.notRequired, h.notAbove⟩⟩
  · rintro ⟨hdirectory, hnot⟩
    obtain ⟨hhidden, hconventional, hrequired, habove⟩ := (hexpected hdirectory).mp hnot
    exact ⟨hdirectory, hhidden, hconventional, hrequired, habove⟩

/-! ## The report -/

/-- What is reported of required directories. -/
def requiredReports (disk : Disk) (root : Location) (graph : Graph) (required : List (String × String)) :
    List Violation :=
  required.filterMap (fun entry => presenceViolation? entry.1 entry.2 (presence disk (root.join entry.1))) ++
    detectUnusedDirectories graph (required.filter fun entry => !(presence disk (root.join entry.1)).isMissing)

/-- The directories at the root that are reported where other directories are not allowed. -/
def unexpectedDirs (disk : Disk) (root : Location) (policy : Policy) : List String :=
  (topLevelDirs disk root).filter fun name => !isExpectedDirectory policy name

theorem checkStructure_eq (disk : Disk) (root : Location) (graph : Graph) (policy : Policy) :
    checkStructure disk root graph policy =
      if policy.requiredDirectories.entries.isEmpty then []
      else requiredReports disk root graph policy.requiredDirectories.entries ++
        if policy.allowOtherDirectories then [] else (unexpectedDirs disk root policy).map unexpectedDirectory :=
  rfl

theorem checkStructure_of_required (hsome : policy.requiredDirectories.entries ≠ []) :
    checkStructure disk root graph policy =
      requiredReports disk root graph policy.requiredDirectories.entries ++
        if policy.allowOtherDirectories then [] else (unexpectedDirs disk root policy).map unexpectedDirectory := by
  rw [checkStructure_eq, if_neg (by simpa using hsome)]

/-- **The rule reports how the required directories are found**, then those that are there and unused, both in their
order, and then, where other directories are not allowed, the unexpected ones in the order of their names. Each report
names the directory that it is about. Without required directories nothing is reported. -/
theorem checkStructure_reports (disk : Disk) (root : Location) (graph : Graph) (policy : Policy) (hdisk : disk.IsNamed)
    (hdistinct : (disk.nodes.map Prod.fst).Nodup)
    (haccess : ∀ directory ∈ policy.requiredDirectories.keys, disk.IsAccessible (root.join directory)) :
    let required := policy.requiredDirectories
    (required.entries = [] → checkStructure disk root graph policy = []) ∧
      (required.entries ≠ [] → ∃ (found : List (List Violation)) (unused : List (String × String))
          (unexpected : List String),
        checkStructure disk root graph policy =
          found.flatten ++ unused.map (fun entry => unusedDirectory entry.1 entry.2) ++
            unexpected.map unexpectedDirectory ∧
        List.Forall₂ (ReportsOn disk root) required.entries found ∧
        (∀ entry ∈ unused, IsAbout .unusedDirectory entry (unusedDirectory entry.1 entry.2)) ∧
        (∀ name ∈ unexpected,
          (unexpectedDirectory name).kind = .unexpectedDirectory ∧ (unexpectedDirectory name).file = name) ∧
        unused.Sublist required.entries ∧
        (∀ entry ∈ required.entries,
          entry ∈ unused ↔ ¬ IsMissing disk (root.join entry.1) ∧ IsUnused graph entry.1) ∧
        unexpected.Pairwise (· < ·) ∧
        ∀ name, name ∈ unexpected ↔
          policy.allowOtherDirectories = false ∧ IsUnexpected disk root required.keys name) := by
  have hentry : ∀ entry ∈ policy.requiredDirectories.entries, disk.IsAccessible (root.join entry.1) :=
    fun entry hmem => haccess entry.1 (List.mem_map_of_mem hmem)
  constructor
  · intro hnone
    rw [checkStructure, hnone]
    rfl
  · intro hsome
    refine ⟨policy.requiredDirectories.entries.map fun entry =>
        (presenceViolation? entry.1 entry.2 (presence disk (root.join entry.1))).toList,
      (policy.requiredDirectories.entries.filter fun entry => !(presence disk (root.join entry.1)).isMissing).filter
        fun entry => !isUsedDirectory graph entry.1,
      if policy.allowOtherDirectories then [] else unexpectedDirs disk root policy, ?_, ?_, fun _ _ => ⟨rfl, rfl, rfl⟩,
      fun _ _ => ⟨rfl, rfl⟩, ?_, ?_, ?_, ?_⟩
    · rw [checkStructure_of_required hsome, requiredReports, List.filterMap_eq_flatMap_toList,
        List.flatMap_def]
      congr 1
      cases policy.allowOtherDirectories <;> rfl
    · rw [List.forall₂_map_right_iff, List.forall₂_same]
      exact fun entry hmem => reportsOn_presence (hentry entry hmem)
    · exact List.filter_sublist.trans List.filter_sublist
    · intro entry hmem
      rw [List.mem_filter, List.mem_filter, Bool.not_eq_true', Bool.not_eq_true', isUsedDirectory_eq_false_iff,
        ← Bool.not_eq_true, isMissing_presence, and_iff_right hmem]
    · cases policy.allowOtherDirectories with
      | true => exact .nil
      | false => exact (pairwise_topLevelDirs hdistinct root).filter _
    · intro name
      rw [isUnexpected_iff hdisk]
      cases policy.allowOtherDirectories <;> simp [unexpectedDirs, mem_topLevelDirs_iff]

/-- A project with a package, a file in place of a directory, a directory that has only a test and a link to the
package, and four more directories at the root, one of them a link. -/
def crowdedDisk : Disk :=
  { nodes :=
      [(["pkg"], .directory), (["pkg", "a.go"], .file "package pkg\n".toUTF8), (["cmd"], .file "".toUTF8),
        (["lib"], .directory), (["lib", "b_test.go"], .file "package lib\n".toUTF8), (["lib", "more"], .link "../pkg"),
        (["latest"], .link "pkg"), (["docs"], .directory), ([".git"], .directory), (["extra"], .directory)]
    current := [] }

/-- A policy that requires five directories and allows no others. -/
def crowdedPolicy : Policy :=
  { requiredDirectories := .ofList [("lib", ""), ("cmd", ""), ("pkg", ""), ("docs/api", ""), ("gen", "")]
    allowOtherDirectories := false }

theorem checkStructure_reports_crowded :
    crowdedDisk.IsNamed ∧ (crowdedDisk.nodes.map Prod.fst).Nodup ∧
      (∀ directory ∈ crowdedPolicy.requiredDirectories.keys,
        crowdedDisk.IsAccessible (Location.join ⟨false, []⟩ directory)) ∧
      ∃ (found : List (List Violation)) (unused : List (String × String)) (unexpected : List String),
        checkStructure crowdedDisk ⟨false, []⟩ ⟨[], "m"⟩ crowdedPolicy =
          found.flatten ++ unused.map (fun entry => unusedDirectory entry.1 entry.2) ++
            unexpected.map unexpectedDirectory ∧
        found.length = 5 ∧ ("lib", "") ∈ unused ∧ ("gen", "") ∉ unused ∧ "docs" ∉ unexpected := by
  have hnamed : crowdedDisk.IsNamed := by decide +kernel
  have hdistinct : (crowdedDisk.nodes.map Prod.fst).Nodup := by decide +kernel
  have hthere : ∀ directory ∈ crowdedPolicy.requiredDirectories.keys,
      (crowdedDisk.find? (Location.join ⟨false, []⟩ directory)).toOption.isSome = true := by decide +kernel
  have hbelow : ∀ path ∈ crowdedPolicy.requiredDirectories.keys, ∀ entry ∈ crowdedDisk.nodes,
      ∀ directory ∈ crowdedDisk.directory? (Location.join ⟨false, []⟩ path), directory <+: entry.1 →
        (crowdedDisk.find? ((Location.join ⟨false, []⟩ path).below
          (entry.1.drop directory.length))).toOption.isSome = true := by decide +kernel
  have haccess : ∀ directory ∈ crowdedPolicy.requiredDirectories.keys,
      crowdedDisk.IsAccessible (Location.join ⟨false, []⟩ directory) :=
    fun directory hmem => isAccessible_of_nodes (hthere directory hmem) (hbelow directory hmem)
  have hlib : crowdedDisk.find? (Location.join ⟨false, []⟩ "lib") = .ok (some .directory) := by decide +kernel
  have hgen : crowdedDisk.find? (Location.join ⟨false, []⟩ "gen") = .ok none := by decide +kernel
  obtain ⟨-, hreports⟩ :=
    checkStructure_reports crowdedDisk ⟨false, []⟩ ⟨[], "m"⟩ crowdedPolicy hnamed hdistinct haccess
  obtain ⟨found, unused, unexpected, heq, hfound, -, -, -, hunused, -, hunexpected⟩ := hreports (by decide +kernel)
  refine ⟨hnamed, hdistinct, haccess, found, unused, unexpected, heq, ?_, ?_, ?_, ?_⟩
  · exact hfound.length_eq.symm.trans (by decide +kernel)
  · refine (hunused _ (by decide +kernel)).mpr ⟨?_, by simp [IsUnused]⟩
    rintro ⟨node, hnode, hne⟩
    exact hne (Except.ok.inj (hnode.symm.trans hlib))
  · intro hmem
    exact ((hunused _ (by decide +kernel)).mp hmem).1 ⟨none, hgen, by simp⟩
  · intro hmem
    exact ((hunexpected _).mp hmem).2.notAbove "docs/api" (by decide +kernel) "api" [] (by decide +kernel)

end Rule

end LayerLint
