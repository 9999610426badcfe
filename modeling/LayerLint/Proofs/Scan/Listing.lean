import LayerLint.Proofs.Rule.TestNaming
import LayerLint.Proofs.Scan.Reading

/-!
# What a scan lists

A path below the root that holds no backslash is in normal form (`Scan.normalized_pathOf`), for it is cut behind its
last slash (`Path.splitLast_append`) and no other slash stands before that one. So the files that a scan gives are
listed as the rules on names expect, each with what its name says and at a path of its own
(`Scan.isListing_of_scan`), and their directories have no empty segments (`Scan.not_mem_segments_directoryOf`).
-/

namespace LayerLint

/-! ## The directory of a path -/

namespace Path

/-- A path is cut behind its last slash. -/
theorem splitLast_append (lead : List Char) {name : List Char} (hname : '/' ∉ name)
    (hlead : ∀ c ∈ lead.getLast?, c = '/') : splitLast (lead ++ name) = (lead, name) := by
  have hall : ∀ c ∈ name.reverse, (c != '/') = true :=
    fun c hc => bne_iff_ne.mpr (ne_of_mem_of_not_mem (List.mem_reverse.mp hc) hname)
  have hnone : lead.reverse.takeWhile (· != '/') = [] := by
    rw [List.takeWhile_eq_nil_iff]
    intro hpos
    rw [bne_iff_ne, not_not]
    apply hlead
    rw [← List.head?_reverse, List.head?_eq_getElem?, List.getElem?_eq_getElem hpos]
    exact rfl
  have hlast : (lead ++ name).reverse.takeWhile (· != '/') = name.reverse := by
    rw [List.reverse_append, List.takeWhile_append_of_pos hall, hnone, List.append_nil]
  rw [splitLast, hlast, List.reverse_reverse, List.length_append, Nat.add_sub_cancel, List.take_left]

/-- Only the slash at the end goes where no other stands before it. -/
theorem dropTrailingSlashes_append_slash {lead : List Char} {c : Char} (h : c ≠ '/') :
    dropTrailingSlashes (lead ++ [c] ++ ['/']) = lead ++ [c] := by
  simp [dropTrailingSlashes, h]

theorem withSlashes_eq_self {path : String} (h : '\\' ∉ path.toList) : withSlashes path = path := by
  have hkept : ∀ c ∈ path.toList, (if c = '\\' then '/' else c) = id c := by
    intro c hc
    have hne : c ≠ '\\' := ne_of_mem_of_not_mem hc h
    rw [if_neg hne, id]
  rw [withSlashes, List.map_congr_left hkept, List.map_id, String.ofList_toList]

theorem baseName_of_not_mem {name : String} (h : '/' ∉ name.toList) : baseName name = name := by
  have hsplit := splitLast_append [] h (by simp)
  rw [List.nil_append] at hsplit
  rw [baseName, hsplit, String.ofList_toList]

theorem baseName_append_slash {directory name : String} (h : '/' ∉ name.toList) :
    baseName (directory ++ "/" ++ name) = name := by
  have hsplit := splitLast_append (directory.toList ++ ['/']) h (by simp)
  rw [baseName, String.toList_append, String.toList_append]
  rw [show "/".toList = ['/'] from rfl, hsplit, String.ofList_toList]

/-- A path at the root has no directory of its own. -/
theorem directoryOf_of_not_mem {name : String} (hslash : '/' ∉ name.toList) (hback : '\\' ∉ name.toList) :
    directoryOf name = rootDir := by
  have hsplit := splitLast_append [] hslash (by simp)
  rw [List.nil_append] at hsplit
  rw [directoryOf, withSlashes_eq_self hback, parent, hsplit]
  rfl

/-- The directory of a path is what stands before the last slash, if no other slash stands before that one. -/
theorem directoryOf_append_slash {directory name : String} (hname : '/' ∉ name.toList)
    (hback : '\\' ∉ (directory ++ "/" ++ name).toList) {front : List Char} {c : Char}
    (hdirectory : directory.toList = front ++ [c]) (hc : c ≠ '/') :
    directoryOf (directory ++ "/" ++ name) = directory := by
  have hsplit := splitLast_append (directory.toList ++ ['/']) hname (by simp)
  have hnotall : (front ++ [c] ++ ['/']).all (· == '/') = false := by simp [hc]
  have hparent : parent (directory ++ "/" ++ name) = directory := by
    rw [parent, String.toList_append, String.toList_append, show "/".toList = ['/'] from rfl, hsplit]
    dsimp only
    rw [hdirectory, hnotall, if_neg Bool.false_ne_true, dropTrailingSlashes_append_slash hc, ← hdirectory,
      String.ofList_toList]
  have hne : directory.isEmpty = false := by
    rw [Bool.eq_false_iff]
    intro hempty
    rw [String.isEmpty_iff] at hempty
    simp [hempty] at hdirectory
  rw [directoryOf, withSlashes_eq_self hback, hparent, hne]
  rfl

end Path

/-! ## Paths of selected files -/

theorem Text.mem_join {c : Char} {sep : String} {parts : List String} (h : c ∈ (Text.join sep parts).toList) :
    c ∈ sep.toList ∨ ∃ part ∈ parts, c ∈ part.toList := by
  induction parts with
  | nil => simp [Text.join] at h
  | cons first more ih =>
    cases more with
    | nil => exact Or.inr ⟨first, List.mem_singleton_self first, by simpa [Text.join] using h⟩
    | cons next rest =>
      rw [Text.join_cons_cons, String.toList_append, String.toList_append, List.mem_append, List.mem_append] at h
      rcases h with (hfirst | hsep) | hmore
      · exact Or.inr ⟨first, List.mem_cons_self, hfirst⟩
      · exact Or.inl hsep
      · rcases ih hmore with hsep | ⟨part, hpart, hc⟩
        · exact Or.inl hsep
        · exact Or.inr ⟨part, List.mem_cons_of_mem first hpart, hc⟩

namespace Scan

variable {disk : Disk} {root : Location} {request : Request} {files : List Source.Parsed}

/-- The parts of a path of which no part is empty, written with slashes, do not end with a slash. -/
theorem exists_join_eq_concat {front : List String} (hfront : front ≠ [])
    (h : ∀ part ∈ front, part ≠ "" ∧ '/' ∉ part.toList) :
    ∃ lead c, (Text.join "/" front).toList = lead ++ [c] ∧ c ≠ '/' := by
  obtain ⟨more, last, rfl⟩ := List.eq_nil_or_concat front |>.resolve_left hfront
  rw [List.concat_eq_append] at h ⊢
  obtain ⟨hne, hslash⟩ := h last (List.mem_append_right _ (List.mem_singleton_self last))
  obtain ⟨lead, c, hlast⟩ := List.eq_nil_or_concat last.toList |>.resolve_left (mt String.toList_eq_nil_iff.mp hne)
  rw [List.concat_eq_append] at hlast
  have hc : c ≠ '/' := ne_of_mem_of_not_mem (hlast ▸ List.mem_append_right _ (List.mem_singleton_self c)) hslash
  have hjoin : Text.join "/" [last] = last := by simp [Text.join]
  by_cases hmore : more = []
  · exact ⟨lead, c, by rw [hmore, List.nil_append, hjoin, hlast], hc⟩
  · refine ⟨(Text.join "/" more ++ "/").toList ++ lead, c, ?_, hc⟩
    rw [Text.join_append "/" hmore (List.cons_ne_nil last []), hjoin, String.toList_append, hlast, List.append_assoc]

/-- The name of a file is the last part of its path. -/
theorem baseName_pathOf {path : List String} (h : IsFilePath path) :
    Path.baseName (pathOf path) = path.getLastD "" := by
  obtain ⟨hne, hslash⟩ := h
  obtain ⟨front, name, rfl⟩ := List.eq_nil_or_concat path |>.resolve_left hne
  rw [List.concat_eq_append] at hslash ⊢
  have hname := hslash name (List.mem_append_right _ (List.mem_singleton_self name))
  have hjoin : Text.join "/" [name] = name := by simp [Text.join]
  rw [pathOf_eq_join (by simp), List.getLastD_concat]
  by_cases hfront : front = []
  · rw [hfront, List.nil_append, hjoin, Path.baseName_of_not_mem hname]
  · rw [Text.join_append "/" hfront (List.cons_ne_nil name []), hjoin, Path.baseName_append_slash hname]

/-- **The path of a file without backslashes is in normal form.** -/
theorem normalized_pathOf {path : List String} (hne : path ≠ [])
    (hparts : ∀ part ∈ path, part = ".." ∨ Disk.IsName part) (hback : ∀ part ∈ path, '\\' ∉ part.toList) :
    Path.normalized (pathOf path) = pathOf path := by
  obtain ⟨front, name, rfl⟩ := List.eq_nil_or_concat path |>.resolve_left hne
  rw [List.concat_eq_append] at hparts hback ⊢
  have hname : '/' ∉ name.toList :=
    Location.not_mem_of_step (hparts name (List.mem_append_right _ (List.mem_singleton_self name)))
  have hnone : '\\' ∉ (Text.join "/" (front ++ [name])).toList := by
    intro hmem
    rcases Text.mem_join hmem with hsep | ⟨part, hpart, hc⟩
    · revert hsep
      decide
    · exact hback part hpart hc
  rw [pathOf_eq_join (by simp)]
  have hjoin : Text.join "/" [name] = name := by simp [Text.join]
  by_cases hfront : front = []
  · rw [hfront, List.nil_append, hjoin] at hnone ⊢
    rw [Path.normalized, Path.directoryOf_of_not_mem hname hnone, Path.baseName_of_not_mem hname]
    rfl
  · have hsteps : ∀ part ∈ front, part = ".." ∨ Disk.IsName part :=
      fun part hpart => hparts part (List.mem_append_left _ hpart)
    have hfilled : ∀ part ∈ front, part ≠ "" ∧ '/' ∉ part.toList := by
      intro part hpart
      refine ⟨?_, Location.not_mem_of_step (hsteps part hpart)⟩
      rintro rfl
      rcases hsteps "" hpart with hup | hname
      · revert hup
        decide
      · exact hname.ne_empty rfl
    obtain ⟨lead, c, hlead, hc⟩ := exists_join_eq_concat hfront hfilled
    have hroot : Text.join "/" front ≠ Path.rootDir := by
      intro hroot
      have hsegments := Path.segments_join hfront fun part hpart => (hfilled part hpart).2
      rw [hroot, show Path.segments Path.rootDir = ["."] by decide] at hsegments
      rcases hsteps "." (hsegments ▸ List.mem_singleton_self ".") with hup | hname
      · revert hup
        decide
      · exact hname.ne_here rfl
    rw [Text.join_append "/" hfront (List.cons_ne_nil name []), hjoin] at hnone ⊢
    rw [Path.normalized, Path.directoryOf_append_slash hname hnone hlead hc, Path.baseName_append_slash hname,
      Path.entry, if_neg (by rwa [beq_iff_eq])]

/-- Each part of the path of a selected file goes up or is a name. -/
theorem Selected.step_or_name (hdisk : disk.IsNamed) {path : List String} (h : Selected disk root request path) :
    ∀ part ∈ path, part = ".." ∨ Disk.IsName part := by
  obtain ⟨scanPath, -, directory, way, name, -, -, hholds, rfl⟩ := h.reached
  obtain ⟨node, hnode⟩ := hholds.exists_node
  intro part hpart
  rw [List.append_assoc, List.mem_append] at hpart
  rcases hpart with hscan | hway
  · rw [partsOf_eq] at hscan
    exact Location.mem_parse hscan
  · rw [List.append_assoc] at hnode
    exact Or.inr (hdisk.isName hnode (List.mem_append_right _ hway))

/-- What is read of a file is what its name says. -/
theorem isNamed_of_readFound {withUsages : Bool} {found : Found} {file : Source.Parsed}
    (hsuffix : Text.endsWith (Path.baseName found.relPath) Source.fileSuffix = true)
    (h : readFound disk withUsages found = .ok file) : file.file.IsNamed := by
  unfold readFound at h
  split at h
  · cases h
  · obtain ⟨⟨header, usages⟩, -, hfile⟩ := Result.bind_eq_ok.mp (Result.mapError_eq_ok.mp h)
    have hparsed := Result.pure_eq_ok.mp hfile
    constructor
    · rw [← hparsed]
      exact hsuffix
    · rw [← hparsed]
    · rw [← hparsed]

/-- Each file of a scan is read where a selected file stands. -/
theorem exists_selected_of_scan (hdisk : disk.IsNamed) (h : (scan disk root request).result = .ok files)
    {file : Source.Parsed} (hfile : file ∈ files) : ∃ path, Selected disk root request path ∧
      readFound disk request.withUsages (.ofPath root path) = .ok file := by
  obtain ⟨read, hreads, rfl⟩ := reads_of_scan hdisk h
  have hperm := List.mergeSort_perm read fun a b => decide (a.file.relPath ≤ b.file.relPath)
  obtain ⟨found, hfound, hread⟩ := (hreads.mem_iff file).mp (hperm.mem_iff.mp hfile)
  obtain ⟨path, hselected, rfl⟩ := (alsoAt_iff_selected hdisk).mp hfound
  exact ⟨path, hselected, hread⟩

/-- **A scan lists its files** as the rules on names expect, where no backslash stands in the paths of the selected
files. -/
theorem isListing_of_scan (hdisk : disk.IsNamed)
    (hback : ∀ path, Selected disk root request path → ∀ part ∈ path, '\\' ∉ part.toList)
    (h : (scan disk root request).result = .ok files) : IsListing (files.map (·.file)) := by
  constructor
  · intro file hfile
    obtain ⟨parsed, hparsed, rfl⟩ := List.mem_map.mp hfile
    obtain ⟨path, hselected, hread⟩ := exists_selected_of_scan hdisk h hparsed
    refine isNamed_of_readFound ?_ hread
    rw [Found.relPath_ofPath, baseName_pathOf (hselected.isFilePath hdisk)]
    exact hselected.isSource
  · have hpaths : ∀ file ∈ files,
        ((fun file => Path.normalized file.relPath) ∘ (·.file)) file = file.file.relPath := by
      intro file hfile
      obtain ⟨path, hselected, hread⟩ := exists_selected_of_scan hdisk h hfile
      rw [Function.comp_apply, relPath_of_readFound hread, Found.relPath_ofPath]
      exact normalized_pathOf (hselected.isFilePath hdisk).1 (hselected.step_or_name hdisk) (hback path hselected)
    obtain ⟨read, hreads, rfl⟩ := reads_of_scan hdisk h
    have hperm := List.mergeSort_perm read fun a b => decide (a.file.relPath ≤ b.file.relPath)
    rw [List.map_map, List.map_congr_left hpaths, (hperm.map _).nodup_iff]
    exact hreads.nodup

/-- The parts of a path have the characters of the path. -/
theorem not_mem_part {c : Char} : ∀ {parts : List String}, c ∉ (Text.join "/" parts).toList →
    ∀ part ∈ parts, c ∉ part.toList
  | [], _ => by simp
  | [first], h => by simpa [Text.join] using h
  | first :: next :: rest, h => by
    rw [Text.join_cons_cons, String.toList_append, String.toList_append, List.mem_append, List.mem_append, not_or,
      not_or] at h
    exact List.forall_mem_cons.mpr ⟨h.1.1, not_mem_part h.2⟩

/-- **The directory of a scanned file has no empty segment** if there is no backslash in the path of the file. -/
theorem not_mem_segments_directoryOf (hdisk : disk.IsNamed) (h : (scan disk root request).result = .ok files)
    {file : Source.Parsed} (hfile : file ∈ files) (hback : '\\' ∉ file.file.relPath.toList) :
    "" ∉ Path.segments (Path.directoryOf file.file.relPath) := by
  obtain ⟨path, hselected, hread⟩ := exists_selected_of_scan hdisk h hfile
  rw [relPath_of_readFound hread, Found.relPath_ofPath] at hback ⊢
  have hne := (hselected.isFilePath hdisk).1
  have hsteps := hselected.step_or_name hdisk
  have hsegments : Path.segments (pathOf path) = path := by
    rw [pathOf_eq_join hne, Path.segments_join hne (hselected.isFilePath hdisk).2]
  have hnormal := normalized_pathOf hne hsteps (not_mem_part (pathOf_eq_join hne ▸ hback))
  have hempty : "" ∉ path := by
    intro hmem
    rcases hsteps "" hmem with hup | hname
    · exact absurd hup (by decide)
    · exact hname.ne_empty rfl
  by_cases hroot : Path.directoryOf (pathOf path) = Path.rootDir
  · rw [hroot]
    decide
  · rw [Path.normalized, Path.entry, if_neg (by simpa using hroot)] at hnormal
    have hpath := congrArg Path.segments hnormal
    rw [Path.segments_append_slash, hsegments] at hpath
    exact fun hmem => hempty (hpath ▸ List.mem_append_left _ hmem)

end Scan

end LayerLint
