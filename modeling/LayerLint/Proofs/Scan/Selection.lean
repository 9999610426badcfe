import LayerLint.Proofs.Path.Way
import LayerLint.Proofs.Result
import LayerLint.Scan
import Mathlib.Data.String.Basic

/-!
# The files that a scan selects

`Selected` says which files of a project a request asks for, by their paths below the root. A scan finds these and no
others (`mem_foundAt_iff`), although it does not enter ignored directories (`filesBelow_eq_filter`); it reads each of
them once (`Reads.readAll`) and puts them in order (`scan_selects`).
-/

namespace LayerLint

/-! ## Scanned paths -/

namespace Scan

/-- The parts of a scanned path. -/
@[irreducible] def partsOf (scanPath : String) : List String := (Location.parse (Path.trimSlashes scanPath)).parts

theorem join_trimSlashes (root : Location) (scanPath : String) :
    root.join (Path.trimSlashes scanPath) = root.below (partsOf scanPath) := by
  rw [partsOf]
  exact Location.join_eq_below (Path.not_startsWith_trimSlashes scanPath)

/-- The parts of a scanned path have no slashes. -/
theorem not_mem_of_mem_partsOf {scanPath part : String} (h : part ∈ partsOf scanPath) : '/' ∉ part.toList := by
  rw [partsOf] at h
  exact Location.not_mem_of_step (Location.mem_parse h)

theorem partsOf_eq (scanPath : String) : partsOf scanPath = (Location.parse scanPath).parts := by
  rw [partsOf, Location.parts_parse_trimSlashes]

theorem partsOf_of_isName {name : String} (h : Disk.IsName name) : partsOf name = [name] := by
  rw [partsOf_eq, Location.parts_parse_of_isName h]

/-! ## Selection -/

/-- A walk may go on into a directory: its name does not begin with a dot. -/
def isVisible (way : List String) : Bool := !Text.startsWith (way.getLastD "") "."

/-- A request selects a file, given by its path below the root. -/
structure Selected (disk : Disk) (root : Location) (request : Request) (path : List String) : Prop where
  /-- The file is reached from the directory of a scanned path through real directories that are not hidden, the last
  of which can be listed. -/
  reached : ∃ scanPath ∈ request.scanPaths, ∃ directory way name,
    disk.directory? (root.below (partsOf scanPath)) = some directory ∧ disk.Reaches directory isVisible way ∧
      disk.HoldsFile (root.below (partsOf scanPath)) directory way name ∧ path = partsOf scanPath ++ way ++ [name]
  isSource : Text.endsWith (path.getLastD "") Source.fileSuffix = true
  /-- No ignored path is the path of the file or leads to it. -/
  notIgnored : ∀ ignored ∈ request.ignorePaths,
    ¬ Path.segments (String.ofList (Path.dropTrailingSlashes ignored.toList)) <+: path
  isAskedFor : request.includesTests = true ∨ Text.endsWith (path.getLastD "") "_test.go" = false

/-- It can be said whether there is a directory at a scanned path. -/
def CanLookUp (disk : Disk) (root : Location) (scanPath : String) : Prop :=
  ∃ found, disk.isDirectory (root.join (Path.trimSlashes scanPath)) = .ok found

/-- The file at a path below the root. -/
def Found.ofPath (root : Location) (path : List String) : Found := ⟨pathOf path, root.below path⟩

@[simp] theorem Found.relPath_ofPath (root : Location) (path : List String) :
    (Found.ofPath root path).relPath = pathOf path := rfl

theorem Found.ofPath_injective (root : Location) : Function.Injective (Found.ofPath root) := by
  intro path path' h
  simp only [Found.ofPath, Found.mk.injEq, Location.below, Location.mk.injEq, List.append_cancel_left_eq] at h
  exact h.2.2

end Scan

/-! ## Directories -/

theorem Disk.isDirectory_eq_ok_iff {disk : Disk} {location : Location} {found : Bool} :
    disk.isDirectory location = .ok found ↔
      disk.resolve location true ≠ .error .nameTooLong ∧ found = (disk.directory? location).isSome := by
  unfold isDirectory find? directory?
  cases hresolve : disk.resolve location true with
  | error cause => cases cause <;> simp [bind, Except.bind, pure, Except.pure, eq_comm]
  | ok target =>
    cases target with
    | absent path => simp [bind, Except.bind, pure, Except.pure, eq_comm]
    | present path =>
      cases hnode : disk.node? path with
      | none => simp [bind, Except.bind, pure, Except.pure, hnode, eq_comm]
      | some node => cases node <;> simp [bind, Except.bind, pure, Except.pure, hnode, eq_comm]

namespace Scan

variable {disk : Disk} {root : Location} {request : Request} {scanPath : String} {directory parts way : List String}

/-- The files that are found at a scanned path. -/
def foundAt (disk : Disk) (root : Location) (request : Request) (scanPath : String) : List Found :=
  match disk.directory? (root.below (partsOf scanPath)) with
  | some directory => filesBelow disk root request directory (partsOf scanPath)
  | none => []

theorem filesAt_eq_ok_iff {found : List Found} : (filesAt disk root request scanPath).result = .ok found ↔
    CanLookUp disk root scanPath ∧ found = foundAt disk root request scanPath := by
  have hstart := join_trimSlashes root scanPath
  unfold filesAt CanLookUp foundAt
  dsimp only
  rw [hstart]
  cases hlookup : disk.isDirectory (root.below (partsOf scanPath)) with
  | error cause => simp
  | ok isDirectory =>
    obtain ⟨-, hdirectory⟩ := Disk.isDirectory_eq_ok_iff.mp hlookup
    cases hfound : disk.directory? (root.below (partsOf scanPath)) with
    | none =>
      rw [hfound] at hdirectory
      subst hdirectory
      simp [Logged.result_bind, eq_comm]
    | some directory =>
      rw [hfound] at hdirectory
      subst hdirectory
      simp [partsOf, eq_comm]

/-! ## Ignored directories -/

theorem pathOf_eq_join (h : parts ≠ []) : pathOf parts = Text.join "/" parts := by
  rw [pathOf, if_neg (by simpa using h)]

/-- The paths below an ignored path are ignored. -/
theorem isIgnored_append {ignored more : List String} (hparts : parts ≠ []) (hmore : more ≠ [])
    (h : Path.isIgnored (pathOf parts) ignored = true) : Path.isIgnored (pathOf (parts ++ more)) ignored = true := by
  rw [pathOf_eq_join hparts] at h
  rw [pathOf_eq_join (by simp [hparts])]
  obtain ⟨entry, hmem, hunder⟩ := List.any_eq_true.mp h
  refine List.any_eq_true.mpr ⟨entry, hmem, ?_⟩
  rw [Path.isUnder_iff] at hunder ⊢
  rw [Path.segments_join_append hparts hmore]
  exact hunder.trans (List.prefix_append _ _)

/-- The request without ignored paths. -/
def Request.ignoringNothing (request : Request) : Request := { request with ignorePaths := [] }

/-- What a request makes of a file that a walk finds. -/
def kept? (root : Location) (request : Request) (parts path : List String) : Option Found :=
  if Text.endsWith (path.getLastD "") Source.fileSuffix ∧ selects request (pathOf (parts ++ path)) = true then
    some (.ofPath root (parts ++ path))
  else none

theorem filesBelow_eq_filterMap (disk : Disk) (root : Location) (request : Request) (directory parts : List String) :
    filesBelow disk root request directory parts =
      (disk.filesBelow (root.below parts) directory fun way => enters request.ignorePaths (parts ++ way)).filterMap
        (kept? root request parts) := by
  unfold filesBelow
  dsimp only
  rw [List.filterMap_filter]
  apply List.filterMap_congr
  intro path _
  unfold kept?
  by_cases hsource : Text.endsWith (path.getLastD "") Source.fileSuffix = true
  · rw [if_pos hsource, if_congr (and_iff_right hsource) rfl rfl]
    rfl
  · rw [if_neg hsource, if_neg fun h => hsource h.1]

theorem kept?_eq (root : Location) (request : Request) (parts path : List String) :
    kept? root request parts path =
      if Path.isIgnored (pathOf (parts ++ path)) request.ignorePaths then none
      else kept? root request.ignoringNothing parts path := by
  have hselects : selects request (pathOf (parts ++ path)) =
      (!Path.isIgnored (pathOf (parts ++ path)) request.ignorePaths &&
        selects request.ignoringNothing (pathOf (parts ++ path))) := rfl
  unfold kept?
  rw [hselects]
  split_ifs <;> simp_all

/-- **Not to enter ignored directories is to leave out the ignored files.** -/
theorem filesBelow_eq_filter (disk : Disk) (root : Location) (request : Request) (directory parts : List String) :
    filesBelow disk root request directory parts =
      (filesBelow disk root request.ignoringNothing directory parts).filter fun found =>
        !Path.isIgnored found.relPath request.ignorePaths := by
  -- nothing below an ignored directory is kept
  have hpassed : (disk.filesBelow (root.below parts) directory fun way =>
        enters request.ignorePaths (parts ++ way)).filter
        (fun path => !Path.isIgnored (pathOf (parts ++ path)) request.ignorePaths) =
      (disk.filesBelow (root.below parts) directory fun way => enters [] (parts ++ way)).filter
        fun path => !Path.isIgnored (pathOf (parts ++ path)) request.ignorePaths := by
    apply Disk.filter_filesBelow
    · intro way _ henters
      rw [enters, Bool.and_eq_true] at henters ⊢
      exact ⟨henters.1, by simp [Path.isIgnored]⟩
    · intro way hway hvisible hnot name more
      rw [enters, Bool.and_eq_true] at hvisible
      rw [enters, hvisible.1, Bool.true_and, Bool.not_eq_false'] at hnot
      rw [← List.append_assoc, isIgnored_append (by simp [hway]) (by simp) hnot]
      rfl
  have hkept : ∀ paths : List (List String), paths.filterMap (kept? root request parts) =
      (paths.filter fun path => !Path.isIgnored (pathOf (parts ++ path)) request.ignorePaths).filterMap
        (kept? root request parts) := by
    intro paths
    rw [List.filterMap_filter]
    apply List.filterMap_congr
    intro path _
    rw [kept?_eq]
    by_cases hignored : Path.isIgnored (pathOf (parts ++ path)) request.ignorePaths = true <;> simp [hignored]
  rw [filesBelow_eq_filterMap, hkept, hpassed, ← hkept, filesBelow_eq_filterMap, List.filter_filterMap]
  apply List.filterMap_congr
  intro path _
  rw [kept?_eq]
  by_cases hignored : Path.isIgnored (pathOf (parts ++ path)) request.ignorePaths = true
  · rw [if_pos hignored, kept?]
    split <;> simp [Option.filter, Found.ofPath, hignored]
  · rw [if_neg hignored, kept?]
    split <;> simp [Option.filter, Found.ofPath, hignored]

/-! ## What is found -/

/-- **What a scan finds at a scanned path.** -/
theorem mem_foundAt_iff {found : Found} : found ∈ foundAt disk root request scanPath ↔
    ∃ directory way name, disk.directory? (root.below (partsOf scanPath)) = some directory ∧
      disk.Reaches directory isVisible way ∧ disk.HoldsFile (root.below (partsOf scanPath)) directory way name ∧
        Text.endsWith name Source.fileSuffix = true ∧
          selects request (pathOf (partsOf scanPath ++ way ++ [name])) = true ∧
            found = .ofPath root (partsOf scanPath ++ way ++ [name]) := by
  have hvisible : ∀ (parts way : List String) (name : String),
      enters [] (parts ++ (way ++ [name])) = isVisible (way ++ [name]) := by
    intro parts way name
    simp [enters, isVisible, Path.isIgnored]
  have hselects : ∀ relPath, selects request relPath =
      (!Path.isIgnored relPath request.ignorePaths && selects request.ignoringNothing relPath) := fun _ => rfl
  unfold foundAt
  cases hdirectory : disk.directory? (root.below (partsOf scanPath)) with
  | none => simp
  | some directory =>
    dsimp only
    rw [filesBelow_eq_filter, filesBelow_eq_filterMap, List.mem_filter, List.mem_filterMap]
    constructor
    · rintro ⟨⟨path, hpath, hkept⟩, hignored⟩
      obtain ⟨way, name, hreaches, hholds, rfl⟩ := Disk.mem_filesBelow_iff.mp hpath
      unfold kept? at hkept
      split at hkept
      · rename_i hsource
        obtain rfl := Option.some.inj hkept
        refine ⟨directory, way, name, rfl, hreaches.mono fun way name h => (hvisible _ _ _).symm.trans h, hholds,
          by simpa using hsource.1, ?_, by simp⟩
        rw [List.append_assoc, hselects, hsource.2, Bool.and_true, ← Found.relPath_ofPath root]
        exact hignored
      · cases hkept
    · rintro ⟨directory', way, name, heq, hreaches, hholds, hsource, hselected, rfl⟩
      obtain rfl := Option.some.inj heq
      rw [List.append_assoc, hselects, Bool.and_eq_true] at hselected
      refine ⟨⟨way ++ [name], Disk.mem_filesBelow_iff.mpr ⟨way, name, hreaches.mono fun way name h =>
        (hvisible _ _ _).trans h, hholds, rfl⟩, ?_⟩, ?_⟩
      · rw [kept?, if_pos ⟨by simpa using hsource, hselected.2⟩, List.append_assoc]
      · rw [List.append_assoc, Found.relPath_ofPath]
        exact hselected.1

/-- Each file is found once at a scanned path. -/
theorem nodup_foundAt (disk : Disk) (root : Location) (request : Request) (scanPath : String) :
    (foundAt disk root request scanPath).Nodup := by
  unfold foundAt
  split
  · rw [filesBelow_eq_filterMap]
    refine (Disk.nodup_filesBelow _ _ _ _).filterMap fun path path' found h h' => ?_
    have hpath : ∀ {path}, found ∈ kept? root request (partsOf scanPath) path →
        found = .ofPath root (partsOf scanPath ++ path) := by
      intro path h
      unfold kept? at h
      split at h
      · exact (Option.some.inj h).symm
      · cases h
    exact List.append_cancel_left (Found.ofPath_injective root ((hpath h).symm.trans (hpath h')))
  · exact List.nodup_nil

/-- The path of a file, made of parts without slashes. -/
def IsFilePath (path : List String) : Prop := path ≠ [] ∧ ∀ part ∈ path, '/' ∉ part.toList

/-- Files are known by the texts of their paths. -/
theorem eq_of_pathOf_eq {path path' : List String} (h : IsFilePath path) (h' : IsFilePath path')
    (heq : pathOf path = pathOf path') : path = path' := by
  rw [pathOf_eq_join h.1, pathOf_eq_join h'.1] at heq
  have hsegments := congrArg Path.segments heq
  rwa [Path.segments_join h.1 h.2, Path.segments_join h'.1 h'.2] at hsegments

theorem isFilePath_of_holdsFile (hdisk : disk.IsNamed) {start : Location} {name : String}
    (h : disk.HoldsFile start directory way name) : IsFilePath (partsOf scanPath ++ way ++ [name]) := by
  obtain ⟨node, hnode⟩ := h.exists_node
  refine ⟨by simp, fun part hpart => ?_⟩
  rw [List.append_assoc, List.mem_append] at hpart
  rcases hpart with hpart | hpart
  · exact not_mem_of_mem_partsOf hpart
  · rw [List.append_assoc] at hnode
    exact (hdisk.isName hnode (List.mem_append_right _ hpart)).noSlash

theorem isFilePath_of_mem_foundAt (hdisk : disk.IsNamed) {found : Found}
    (h : found ∈ foundAt disk root request scanPath) : ∃ path, IsFilePath path ∧ found = .ofPath root path := by
  obtain ⟨directory, way, name, -, -, hholds, -, -, rfl⟩ := mem_foundAt_iff.mp h
  exact ⟨_, isFilePath_of_holdsFile hdisk hholds, rfl⟩

theorem Selected.isFilePath (hdisk : disk.IsNamed) {path : List String} (h : Selected disk root request path) :
    IsFilePath path := by
  obtain ⟨scanPath, -, directory, way, name, -, -, hholds, rfl⟩ := h.reached
  exact isFilePath_of_holdsFile hdisk hholds

/-! ## What is selected -/

/-- What is selected stands on the disk. -/
theorem Selected.exists_node {path : List String} (h : Selected disk root request path) :
    ∃ scanPath ∈ request.scanPaths, ∃ directory more node,
      disk.directory? (root.below (partsOf scanPath)) = some directory ∧ path = partsOf scanPath ++ more ∧
        (directory ++ more, node) ∈ disk.nodes := by
  obtain ⟨scanPath, hscan, directory, way, name, hdirectory, -, hholds, rfl⟩ := h.reached
  obtain ⟨node, hnode⟩ := hholds.exists_mem
  rw [List.append_assoc] at hnode
  exact ⟨scanPath, hscan, directory, way ++ [name], node, hdirectory, List.append_assoc _ _ _, hnode⟩

/-- The end of a path that has no slash is the end of its last name. -/
theorem endsWith_pathOf {path : List String} (h : path ≠ []) {tail : String} (htail : '/' ∉ tail.toList) :
    Text.endsWith (pathOf path) tail = Text.endsWith (path.getLastD "") tail := by
  obtain ⟨front, name, rfl⟩ := List.eq_nil_or_concat path |>.resolve_left h
  rw [List.concat_eq_append, pathOf_eq_join (by simp), List.getLastD_concat]
  by_cases hfront : front = []
  · simp [hfront, Text.join]
  · rw [Text.join_append "/" hfront (by simp)]
    have htext : Text.join "/" [name] = name := by simp [Text.join]
    rw [htext, Text.endsWith, Text.endsWith, Bool.eq_iff_iff, List.isSuffixOf_iff_suffix, List.isSuffixOf_iff_suffix,
      String.toList_append]
    constructor
    · intro hsuffix
      rw [String.toList_append] at hsuffix
      rcases List.suffix_or_suffix_of_suffix hsuffix (List.suffix_append _ _) with hshort | hlong
      · exact hshort
      · -- an end that is longer than the name holds the slash before it
        obtain ⟨more, hmore⟩ := hlong
        rcases List.eq_nil_or_concat more with rfl | ⟨rest, c, rfl⟩
        · rw [← hmore]
          simp
        · exfalso
          rw [List.concat_eq_append] at hmore
          obtain ⟨lead, hlead⟩ := hsuffix
          rw [← hmore, ← List.append_assoc] at hlead
          have hlast := List.append_cancel_right hlead
          have hc : c = '/' := by
            have := congrArg List.getLast? hlast
            simpa using this
          rw [← hmore, hc] at htail
          exact htail (by simp)
    · exact fun hsuffix => hsuffix.trans (List.suffix_append _ _)

/-- What a request asks of the path of a file. -/
theorem selects_iff {path : List String} (h : IsFilePath path) : selects request (pathOf path) = true ↔
    (∀ ignored ∈ request.ignorePaths,
      ¬ Path.segments (String.ofList (Path.dropTrailingSlashes ignored.toList)) <+: path) ∧
        (request.includesTests = true ∨ Text.endsWith (path.getLastD "") "_test.go" = false) := by
  have htest : Source.isTestName (pathOf path) = Text.endsWith (path.getLastD "") "_test.go" :=
    endsWith_pathOf h.1 (by decide)
  have hsegments : Path.segments (pathOf path) = path := by rw [pathOf_eq_join h.1, Path.segments_join h.1 h.2]
  rw [selects, htest, Bool.and_eq_true, Bool.or_eq_true, Bool.not_eq_true', Bool.not_eq_true', Path.isIgnored,
    List.any_eq_false]
  simp only [Path.isUnder_iff, hsegments]

/-- **The files that are found are those that are selected.** -/
theorem exists_mem_foundAt_iff {path : List String} (hpath : IsFilePath path) :
    (∃ scanPath ∈ request.scanPaths, Found.ofPath root path ∈ foundAt disk root request scanPath) ↔
      Selected disk root request path := by
  constructor
  · rintro ⟨scanPath, hscan, hfound⟩
    obtain ⟨directory, way, name, hdirectory, hreaches, hholds, hsource, hselects, heq⟩ := mem_foundAt_iff.mp hfound
    obtain rfl := Found.ofPath_injective root heq
    obtain ⟨hignored, htests⟩ := (selects_iff hpath).mp hselects
    exact ⟨⟨scanPath, hscan, directory, way, name, hdirectory, hreaches, hholds, rfl⟩, by simpa using hsource, hignored,
      htests⟩
  · rintro ⟨⟨scanPath, hscan, directory, way, name, hdirectory, hreaches, hholds, rfl⟩, hsource, hignored, htests⟩
    refine ⟨scanPath, hscan, mem_foundAt_iff.mpr ⟨directory, way, name, hdirectory, hreaches, hholds, ?_, ?_, rfl⟩⟩
    · rw [List.getLastD_concat] at hsource
      exact hsource
    · exact (selects_iff hpath).mpr ⟨hignored, htests⟩

end Scan

end LayerLint
