import LayerLint.Proofs.Scan.Selection
import LayerLint.Proofs.Text.Search

/-!
# The files that a scan reads

A scan keeps the files that it has read and reads those that it finds at the next scanned path, each once (`Reads`).
It comes through where all scanned paths can be looked up and all selected files can be read, and then its files are
the selected ones in the order of their paths. Neither the order of the scanned paths matters nor how often each of
them is given (`scan_selects`).
-/

namespace LayerLint.Scan

variable {disk : Disk} {root : Location} {request : Request} {withUsages : Bool} {scanPath : String}
  {seen files : List Source.Parsed} {founds : Found → Prop}

/-! ## Reading a file -/

theorem relPath_of_readFound {found : Found} {file : Source.Parsed}
    (h : readFound disk withUsages found = .ok file) : file.file.relPath = found.relPath := by
  unfold readFound at h
  split at h
  · cases h
  · rename_i bytes _
    obtain ⟨⟨header, usages⟩, -, hfile⟩ := Result.bind_eq_ok.mp (Result.mapError_eq_ok.mp h)
    rw [← Result.pure_eq_ok.mp hfile]

/-- The files are what is read from the found ones, each once. -/
structure Reads (disk : Disk) (withUsages : Bool) (founds : Found → Prop) (files : List Source.Parsed) : Prop where
  nodup : (files.map (·.file.relPath)).Nodup
  mem_iff : ∀ file, file ∈ files ↔ ∃ found, founds found ∧ readFound disk withUsages found = .ok file
  readable : ∀ found, founds found → ∃ file, readFound disk withUsages found = .ok file

theorem Reads.nil : Reads disk withUsages (fun _ => False) [] := by
  constructor <;> simp

/-- Each found file has a path of its own. -/
def AreDistinct (founds : Found → Prop) : Prop :=
  ∀ ⦃found other : Found⦄, founds found → founds other → found.relPath = other.relPath → found = other

theorem AreDistinct.mono {more : Found → Prop} (h : AreDistinct more) (hmore : ∀ found, founds found → more found) :
    AreDistinct founds := fun _ _ hfound hother => h (hmore _ hfound) (hmore _ hother)

/-- A file is seen where one with its path is. -/
theorem Reads.any_iff (h : Reads disk withUsages founds seen) {found : Found} :
    seen.any (·.file.relPath == found.relPath) = true ↔ ∃ other, founds other ∧ other.relPath = found.relPath := by
  rw [List.any_eq_true]
  constructor
  · rintro ⟨file, hfile, hpath⟩
    obtain ⟨other, hother, hread⟩ := (h.mem_iff file).mp hfile
    exact ⟨other, hother, (relPath_of_readFound hread).symm.trans (by simpa using hpath)⟩
  · rintro ⟨other, hother, hpath⟩
    obtain ⟨file, hread⟩ := h.readable other hother
    exact ⟨file, (h.mem_iff file).mpr ⟨other, hother, hread⟩, by simp [relPath_of_readFound hread, hpath]⟩

/-! ## Reading what is found at a scanned path -/

/-- What is found at a scanned path as well. -/
def AlsoAt (disk : Disk) (root : Location) (request : Request) (founds : Found → Prop) (scanPaths : List String)
    (found : Found) : Prop :=
  founds found ∨ ∃ scanPath ∈ scanPaths, found ∈ foundAt disk root request scanPath

theorem readAt_eq_ok_iff : (readAt disk root request seen scanPath).result = .ok files ↔
    CanLookUp disk root scanPath ∧ ∃ parsed,
      List.Forall₂ (fun found file => readFound disk request.withUsages found = .ok file)
        ((foundAt disk root request scanPath).filter fun f => !seen.any (·.file.relPath == f.relPath)) parsed ∧
          files = seen ++ parsed := by
  rw [readAt, Logged.result_bind, Result.bind_eq_ok]
  simp only [filesAt_eq_ok_iff, Logged.result_bind, Logged.result_ofExcept, Logged.result_pure, Result.bind_eq_ok,
    Result.mapM_eq_ok_iff, Except.ok.injEq]
  constructor
  · rintro ⟨_, ⟨hlookup, rfl⟩, parsed, hparsed, rfl⟩
    exact ⟨hlookup, parsed, hparsed, rfl⟩
  · rintro ⟨hlookup, parsed, hparsed, rfl⟩
    exact ⟨_, ⟨hlookup, rfl⟩, parsed, hparsed, rfl⟩

theorem mem_iff_of_forall₂ {found parsed : List _}
    (h : List.Forall₂ (fun found file => readFound disk withUsages found = .ok file) found parsed)
    (file : Source.Parsed) : file ∈ parsed ↔ ∃ f ∈ found, readFound disk withUsages f = .ok file := by
  induction h with
  | nil => simp
  | cons hread _ ih => simp [ih, hread, eq_comm]

theorem map_relPath_of_forall₂ {found parsed : List _}
    (h : List.Forall₂ (fun found file => readFound disk withUsages found = .ok file) found parsed) :
    parsed.map (·.file.relPath) = found.map (·.relPath) := by
  induction h with
  | nil => rfl
  | cons hread _ ih => rw [List.map_cons, List.map_cons, ih, relPath_of_readFound hread]

/-- What is found at a scanned path was seen before or is new. -/
theorem Reads.seen_or_new (h : Reads disk request.withUsages founds seen)
    (hdistinct : AreDistinct (AlsoAt disk root request founds [scanPath])) {found : Found}
    (hfound : found ∈ foundAt disk root request scanPath) :
    founds found ∨
      found ∈ (foundAt disk root request scanPath).filter fun f => !seen.any (·.file.relPath == f.relPath) := by
  by_cases hseen : seen.any (·.file.relPath == found.relPath) = true
  · obtain ⟨other, hother, hpath⟩ := h.any_iff.mp hseen
    have hsame : other = found := hdistinct (.inl hother) (.inr ⟨scanPath, .head _, hfound⟩) hpath
    exact .inl (hsame ▸ hother)
  · exact .inr (List.mem_filter.mpr ⟨hfound, by simpa using hseen⟩)

/-- One step: what is read at a scanned path is added to what was read before. -/
theorem Reads.readAt (h : Reads disk request.withUsages founds seen)
    (hdistinct : AreDistinct (AlsoAt disk root request founds [scanPath]))
    (hread : (readAt disk root request seen scanPath).result = .ok files) :
    Reads disk request.withUsages (AlsoAt disk root request founds [scanPath]) files := by
  obtain ⟨-, parsed, hparsed, rfl⟩ := readAt_eq_ok_iff.mp hread
  have hmem := mem_iff_of_forall₂ hparsed
  constructor
  · rw [List.map_append, map_relPath_of_forall₂ hparsed]
    refine h.nodup.append ?_ ?_
    · refine List.Nodup.map_on ?_ ((nodup_foundAt disk root request scanPath).filter _)
      intro found hfound other hother hpath
      exact hdistinct (.inr ⟨scanPath, .head _, (List.mem_filter.mp hfound).1⟩)
        (.inr ⟨scanPath, .head _, (List.mem_filter.mp hother).1⟩) hpath
    · intro path hseen hnew
      obtain ⟨file, hfile, rfl⟩ := List.mem_map.mp hseen
      obtain ⟨found, hfound, hpath⟩ := List.mem_map.mp hnew
      have hnot := (List.mem_filter.mp hfound).2
      rw [Bool.not_eq_true', List.any_eq_false] at hnot
      exact hnot file hfile (by simp [hpath])
  · intro file
    rw [List.mem_append, h.mem_iff, hmem]
    constructor
    · rintro (⟨found, hfound, hfile⟩ | ⟨found, hfound, hfile⟩)
      · exact ⟨found, .inl hfound, hfile⟩
      · exact ⟨found, .inr ⟨scanPath, .head _, (List.mem_filter.mp hfound).1⟩, hfile⟩
    · rintro ⟨found, hfound | ⟨path, hpath, hfound⟩, hfile⟩
      · exact .inl ⟨found, hfound, hfile⟩
      · obtain rfl := List.mem_singleton.mp hpath
        rcases h.seen_or_new hdistinct hfound with hseen | hnew
        · exact .inl ⟨found, hseen, hfile⟩
        · exact .inr ⟨found, hnew, hfile⟩
  · rintro found (hfound | ⟨path, hpath, hfound⟩)
    · exact h.readable found hfound
    · obtain rfl := List.mem_singleton.mp hpath
      rcases h.seen_or_new hdistinct hfound with hseen | hnew
      · exact h.readable found hseen
      · exact Result.exists_mapM_eq_ok.mp ⟨parsed, Result.mapM_eq_ok_iff.mpr hparsed⟩ found hnew

/-- Reading at a scanned path comes through where it can be looked up and all that is found there can be read. -/
theorem Reads.exists_readAt_iff (h : Reads disk request.withUsages founds seen)
    (hdistinct : AreDistinct (AlsoAt disk root request founds [scanPath])) :
    (∃ files, (Scan.readAt disk root request seen scanPath).result = .ok files) ↔
      CanLookUp disk root scanPath ∧ ∀ found ∈ foundAt disk root request scanPath,
        ∃ file, readFound disk request.withUsages found = .ok file := by
  simp only [readAt_eq_ok_iff, ← Result.mapM_eq_ok_iff]
  constructor
  · rintro ⟨files, hlookup, parsed, hparsed, -⟩
    refine ⟨hlookup, fun found hfound => ?_⟩
    rcases h.seen_or_new hdistinct hfound with hseen | hnew
    · exact h.readable found hseen
    · exact Result.exists_mapM_eq_ok.mp ⟨parsed, hparsed⟩ found hnew
  · rintro ⟨hlookup, hread⟩
    obtain ⟨parsed, hparsed⟩ := Result.exists_mapM_eq_ok.mpr fun found hnew => hread found (List.mem_filter.mp hnew).1
    exact ⟨_, hlookup, parsed, hparsed, rfl⟩

/-! ## Reading at all scanned paths -/

theorem alsoAt_nil : AlsoAt disk root request founds [] = founds := by
  funext found
  simp [AlsoAt]

theorem alsoAt_cons {rest : List String} : AlsoAt disk root request founds (scanPath :: rest) =
    AlsoAt disk root request (AlsoAt disk root request founds [scanPath]) rest := by
  funext found
  simp [AlsoAt, or_assoc]

/-- What is found at the first scanned path has paths of its own if all has. -/
theorem AreDistinct.first {rest : List String}
    (h : AreDistinct (AlsoAt disk root request founds (scanPath :: rest))) :
    AreDistinct (AlsoAt disk root request founds [scanPath]) := by
  rw [alsoAt_cons] at h
  exact h.mono fun found hfound => .inl hfound

/-- **A run**: what is read is all that is found. -/
theorem Reads.readAll {scanPaths : List String} (h : Reads disk request.withUsages founds seen)
    (hdistinct : AreDistinct (AlsoAt disk root request founds scanPaths))
    (hread : (Scan.readAll disk root request seen scanPaths).result = .ok files) :
    Reads disk request.withUsages (AlsoAt disk root request founds scanPaths) files := by
  induction scanPaths generalizing seen founds with
  | nil =>
    obtain rfl : seen = files := Except.ok.inj hread
    rwa [alsoAt_nil]
  | cons scanPath rest ih =>
    rw [Scan.readAll, Logged.result_bind, Result.bind_eq_ok] at hread
    obtain ⟨between, hfirst, hrest⟩ := hread
    have hbetween := h.readAt hdistinct.first hfirst
    rw [alsoAt_cons] at hdistinct ⊢
    exact ih hbetween hdistinct hrest

/-- A run comes through where every scanned path can be looked up and all that is found can be read. -/
theorem Reads.exists_readAll_iff {scanPaths : List String} (h : Reads disk request.withUsages founds seen)
    (hdistinct : AreDistinct (AlsoAt disk root request founds scanPaths)) :
    (∃ files, (Scan.readAll disk root request seen scanPaths).result = .ok files) ↔
      ∀ scanPath ∈ scanPaths, CanLookUp disk root scanPath ∧ ∀ found ∈ foundAt disk root request scanPath,
        ∃ file, readFound disk request.withUsages found = .ok file := by
  induction scanPaths generalizing seen founds with
  | nil => simp [Scan.readAll]
  | cons scanPath rest ih =>
    rw [List.forall_mem_cons, ← h.exists_readAt_iff hdistinct.first]
    simp only [Scan.readAll, Logged.result_bind, Result.exists_bind_eq_ok]
    constructor
    · rintro ⟨between, hfirst, hrest⟩
      have hbetween := h.readAt hdistinct.first hfirst
      rw [alsoAt_cons] at hdistinct
      exact ⟨⟨between, hfirst⟩, (ih hbetween hdistinct).mp hrest⟩
    · rintro ⟨⟨between, hfirst⟩, hrest⟩
      have hbetween := h.readAt hdistinct.first hfirst
      rw [alsoAt_cons] at hdistinct
      exact ⟨between, hfirst, (ih hbetween hdistinct).mpr hrest⟩

/-! ## Scanning a project -/

theorem scan_eq_ok_iff : (scan disk root request).result = .ok files ↔
    ∃ read, (readAll disk root request [] request.scanPaths).result = .ok read ∧
      files = read.mergeSort fun a b => decide (a.file.relPath ≤ b.file.relPath) := by
  rw [scan, Logged.result_bind, Result.bind_eq_ok]
  simp [Logged.result_bind, eq_comm]

theorem alsoAt_nothing {scanPaths : List String} {found : Found} :
    AlsoAt disk root request (fun _ => False) scanPaths found ↔
      ∃ scanPath ∈ scanPaths, found ∈ foundAt disk root request scanPath :=
  or_iff_right not_false

/-- All that is found has paths of its own. -/
theorem areDistinct_foundAt (hdisk : disk.IsNamed) (scanPaths : List String) :
    AreDistinct (AlsoAt disk root request (fun _ => False) scanPaths) := by
  intro found other hfound hother hpath
  obtain ⟨scanPath, -, hfound⟩ := alsoAt_nothing.mp hfound
  obtain ⟨scanPath', -, hother⟩ := alsoAt_nothing.mp hother
  obtain ⟨path, hfile, rfl⟩ := isFilePath_of_mem_foundAt hdisk hfound
  obtain ⟨path', hfile', rfl⟩ := isFilePath_of_mem_foundAt hdisk hother
  rw [eq_of_pathOf_eq hfile hfile' hpath]

/-- All that is found is selected. -/
theorem alsoAt_iff_selected (hdisk : disk.IsNamed) {found : Found} :
    AlsoAt disk root request (fun _ => False) request.scanPaths found ↔
      ∃ path, Selected disk root request path ∧ found = .ofPath root path := by
  rw [alsoAt_nothing]
  constructor
  · rintro ⟨scanPath, hscan, hfound⟩
    obtain ⟨path, hfile, rfl⟩ := isFilePath_of_mem_foundAt hdisk hfound
    exact ⟨path, (exists_mem_foundAt_iff hfile).mp ⟨scanPath, hscan, hfound⟩, rfl⟩
  · rintro ⟨path, hselected, rfl⟩
    exact (exists_mem_foundAt_iff (hselected.isFilePath hdisk)).mpr hselected

/-- Files that are each read once stand in order when they are sorted by their paths. -/
theorem Reads.pairwise_mergeSort (h : Reads disk withUsages founds files) :
    (files.mergeSort fun a b => decide (a.file.relPath ≤ b.file.relPath)).Pairwise
      fun a b => a.file.relPath < b.file.relPath :=
  Text.pairwise_lt_sortBy h.nodup

/-- **What a scan gives** is what is read from the files that are selected, in order. -/
theorem reads_of_scan (hdisk : disk.IsNamed) (h : (scan disk root request).result = .ok files) :
    ∃ read, Reads disk request.withUsages (AlsoAt disk root request (fun _ => False) request.scanPaths) read ∧
      files = read.mergeSort fun a b => decide (a.file.relPath ≤ b.file.relPath) := by
  obtain ⟨read, hread, rfl⟩ := scan_eq_ok_iff.mp h
  exact ⟨read, Reads.nil.readAll (areDistinct_foundAt hdisk _) hread, rfl⟩

/-- A scan comes through where all scanned paths can be looked up and all selected files can be read. -/
theorem exists_scan_iff (hdisk : disk.IsNamed) : (∃ files, (scan disk root request).result = .ok files) ↔
    (∀ scanPath ∈ request.scanPaths, CanLookUp disk root scanPath) ∧
      ∀ path, Selected disk root request path →
        ∃ file, readFound disk request.withUsages (.ofPath root path) = .ok file := by
  have hdistinct : AreDistinct (AlsoAt disk root request (fun _ => False) request.scanPaths) :=
    areDistinct_foundAt hdisk _
  have hread := Reads.nil.exists_readAll_iff hdistinct
  constructor
  · rintro ⟨files, hfiles⟩
    obtain ⟨read, hall, -⟩ := scan_eq_ok_iff.mp hfiles
    have hfound := hread.mp ⟨read, hall⟩
    refine ⟨fun scanPath hscan => (hfound scanPath hscan).1, fun path hselected => ?_⟩
    obtain ⟨scanPath, hscan, hmem⟩ := alsoAt_nothing.mp ((alsoAt_iff_selected hdisk).mpr ⟨path, hselected, rfl⟩)
    exact (hfound scanPath hscan).2 _ hmem
  · rintro ⟨hlookup, hselected⟩
    obtain ⟨read, hall⟩ := hread.mpr fun scanPath hscan => ⟨hlookup scanPath hscan, fun found hmem => by
      obtain ⟨path, hpath, rfl⟩ := (alsoAt_iff_selected hdisk).mp (alsoAt_nothing.mpr ⟨scanPath, hscan, hmem⟩)
      exact hselected path hpath⟩
    exact ⟨_, scan_eq_ok_iff.mpr ⟨read, hall, rfl⟩⟩

/-- What is read once from the same files is the same in order. -/
theorem Reads.mergeSort_eq {read : List Source.Parsed} (h : Reads disk withUsages founds files)
    (h' : Reads disk withUsages founds read) :
    (files.mergeSort fun a b => decide (a.file.relPath ≤ b.file.relPath)) =
      read.mergeSort fun a b => decide (a.file.relPath ≤ b.file.relPath) := by
  have hperm : files.Perm read := (List.perm_ext_iff_of_nodup (List.Nodup.of_map _ h.nodup)
    (List.Nodup.of_map _ h'.nodup)).mpr fun file => (h.mem_iff file).trans (h'.mem_iff file).symm
  exact Text.sortBy_eq_of_perm h.nodup hperm

/-- Only which paths are scanned matters for the selection. -/
theorem selected_scanPaths {scanPaths : List String}
    (h : ∀ scanPath, scanPath ∈ scanPaths ↔ scanPath ∈ request.scanPaths) {path : List String} :
    Selected disk root { request with scanPaths } path ↔ Selected disk root request path := by
  constructor
  · rintro ⟨⟨scanPath, hscan, hreached⟩, hsource, hignored, htests⟩
    exact ⟨⟨scanPath, (h scanPath).mp hscan, hreached⟩, hsource, hignored, htests⟩
  · rintro ⟨⟨scanPath, hscan, hreached⟩, hsource, hignored, htests⟩
    exact ⟨⟨scanPath, (h scanPath).mpr hscan, hreached⟩, hsource, hignored, htests⟩

/-- Only which paths are scanned matters for the result. -/
theorem scan_of_scanPaths (hdisk : disk.IsNamed) {scanPaths : List String}
    (h : ∀ scanPath, scanPath ∈ scanPaths ↔ scanPath ∈ request.scanPaths)
    (hscan : (scan disk root request).result = .ok files) :
    (scan disk root { request with scanPaths }).result = .ok files := by
  obtain ⟨hlookup, hselected⟩ := (exists_scan_iff hdisk).mp ⟨files, hscan⟩
  have hother : ∃ others, (scan disk root { request with scanPaths }).result = .ok others :=
    (exists_scan_iff hdisk).mpr ⟨fun scanPath hmem => hlookup scanPath ((h scanPath).mp hmem),
      fun path hpath => hselected path ((selected_scanPaths h).mp hpath)⟩
  obtain ⟨others, hothers⟩ := hother
  obtain ⟨read, hread, rfl⟩ := reads_of_scan hdisk hscan
  obtain ⟨read', hread', rfl⟩ := reads_of_scan hdisk hothers
  have hfounds : AlsoAt disk root { request with scanPaths } (fun _ => False) scanPaths =
      AlsoAt disk root request (fun _ => False) request.scanPaths := by
    funext found
    refine propext ((alsoAt_iff_selected hdisk).trans (Iff.trans ?_ (alsoAt_iff_selected hdisk).symm))
    simp only [selected_scanPaths h]
  rw [hothers, hread.mergeSort_eq (hfounds ▸ hread')]

/-- **A scan gives the selected files.** It comes through where all scanned paths can be looked up and all selected
files can be read, and then these are its files, in the order of their paths. Not to enter ignored directories leaves
out the ignored files alone, and neither the order nor the number of the scanned paths matters. -/
theorem scan_selects (disk : Disk) (root : Location) (request : Request) (hdisk : disk.IsNamed) :
    ((∃ files, (scan disk root request).result = .ok files) ↔
        (∀ scanPath ∈ request.scanPaths, CanLookUp disk root scanPath) ∧
          ∀ path, Selected disk root request path →
            ∃ file, readFound disk request.withUsages (.ofPath root path) = .ok file) ∧
      (∀ files, (scan disk root request).result = .ok files →
        files.Pairwise (fun a b => a.file.relPath < b.file.relPath) ∧
          ∀ file, file ∈ files ↔ ∃ path, Selected disk root request path ∧ file.file.relPath = pathOf path ∧
            readFound disk request.withUsages (.ofPath root path) = .ok file) ∧
      (∀ directory parts, filesBelow disk root request directory parts =
        (filesBelow disk root request.ignoringNothing directory parts).filter fun found =>
          !Path.isIgnored found.relPath request.ignorePaths) ∧
      ∀ scanPaths, (∀ scanPath, scanPath ∈ scanPaths ↔ scanPath ∈ request.scanPaths) →
        ∀ files, (scan disk root { request with scanPaths }).result = .ok files ↔
          (scan disk root request).result = .ok files := by
  refine ⟨exists_scan_iff hdisk, fun files hfiles => ?_, filesBelow_eq_filter disk root request,
    fun scanPaths h files => ⟨fun hscan => ?_, scan_of_scanPaths hdisk h⟩⟩
  · obtain ⟨read, hread, rfl⟩ := reads_of_scan hdisk hfiles
    refine ⟨hread.pairwise_mergeSort, fun file => ?_⟩
    rw [List.mem_mergeSort, hread.mem_iff]
    constructor
    · rintro ⟨found, hfound, hfile⟩
      obtain ⟨path, hselected, rfl⟩ := (alsoAt_iff_selected hdisk).mp hfound
      exact ⟨path, hselected, relPath_of_readFound hfile, hfile⟩
    · rintro ⟨path, hselected, -, hfile⟩
      exact ⟨_, (alsoAt_iff_selected hdisk).mpr ⟨path, hselected, rfl⟩, hfile⟩
  · have hback : ∀ scanPath, scanPath ∈ request.scanPaths ↔ scanPath ∈ scanPaths := fun scanPath => (h scanPath).symm
    exact @scan_of_scanPaths disk root { request with scanPaths } files hdisk _ hback hscan

/-- A project with a package, its tests, generated code that is no Go, and a link to it. -/
def sampleDisk : Disk :=
  { nodes :=
      [(["pkg"], .directory), (["pkg", "a.go"], .file "package pkg\n".toUTF8),
        (["pkg", "a_test.go"], .file "package pkg\n".toUTF8), (["pkg", "gen"], .directory),
        (["pkg", "gen", "g.go"], .file "package\n".toUTF8), (["pkg", "other"], .link "gen")]
    current := [] }

/-- A request for the package, given twice, and for one that is missing. -/
def sampleRequest : Request :=
  { scanPaths := ["pkg/", "missing", "pkg"], ignorePaths := ["pkg/gen/"], includesTests := false, withUsages := false }

/-- The file of the package is all that is selected. -/
theorem selected_sample_iff {path : List String} :
    Selected sampleDisk ⟨false, []⟩ sampleRequest path ↔ path = ["pkg", "a.go"] := by
  have hpkg : partsOf "pkg" = ["pkg"] := partsOf_of_isName (by decide +kernel)
  have hslash : partsOf "pkg/" = ["pkg"] := by
    rw [partsOf]
    decide +kernel
  have hmissing : partsOf "missing" = ["missing"] := partsOf_of_isName (by decide +kernel)
  have hthere : sampleDisk.directory? (Location.below ⟨false, []⟩ ["pkg"]) = some ["pkg"] := by decide +kernel
  have hnowhere : sampleDisk.directory? (Location.below ⟨false, []⟩ ["missing"]) = none := by decide +kernel
  constructor
  · intro h
    obtain ⟨scanPath, hscan, directory, more, node, hdirectory, rfl, hnode⟩ := h.exists_node
    have hparts : partsOf scanPath = ["pkg"] ∧ directory = ["pkg"] := by
      simp only [sampleRequest, List.mem_cons, List.not_mem_nil, or_false] at hscan
      rcases hscan with rfl | rfl | rfl
      · rw [hslash, hthere] at hdirectory
        exact ⟨hslash, (Option.some.inj hdirectory).symm⟩
      · rw [hmissing, hnowhere] at hdirectory
        cases hdirectory
      · rw [hpkg, hthere] at hdirectory
        exact ⟨hpkg, (Option.some.inj hdirectory).symm⟩
    obtain ⟨hparts, rfl⟩ := hparts
    rw [hparts] at h ⊢
    have hall : ∀ entry ∈ sampleDisk.nodes, Text.endsWith (entry.1.getLastD "") Source.fileSuffix = true →
        (∀ ignored ∈ sampleRequest.ignorePaths,
          ¬ Path.segments (String.ofList (Path.dropTrailingSlashes ignored.toList)) <+: entry.1) →
        (sampleRequest.includesTests = true ∨ Text.endsWith (entry.1.getLastD "") "_test.go" = false) →
          entry.1 = ["pkg", "a.go"] := by decide +kernel
    exact hall _ hnode h.isSource h.notIgnored h.isAskedFor
  · rintro rfl
    refine ⟨⟨"pkg", by decide, ["pkg"], [], "a.go", hpkg.symm ▸ hthere, .here, ?_, by rw [hpkg]; rfl⟩, ?_, ?_, ?_⟩
    · rw [hpkg]
      exact ⟨by decide +kernel, by decide +kernel⟩
    · decide +kernel
    · decide +kernel
    · decide +kernel

theorem scan_selects_sample : sampleDisk.IsNamed ∧
    ∃ files, (scan sampleDisk ⟨false, []⟩ sampleRequest).result = .ok files ∧
      ∀ relPath, (∃ file ∈ files, file.file.relPath = relPath) ↔ relPath = "pkg/a.go" := by
  have hnamed : sampleDisk.IsNamed := by decide +kernel
  have hpath : pathOf ["pkg", "a.go"] = "pkg/a.go" := by decide +kernel
  have hlookup : ∀ scanPath ∈ sampleRequest.scanPaths, (sampleDisk.isDirectory
      (Location.join ⟨false, []⟩ (Path.trimSlashes scanPath))).toOption.any (fun _ => true) = true := by decide +kernel
  have hread : (readFound sampleDisk sampleRequest.withUsages
      (.ofPath ⟨false, []⟩ ["pkg", "a.go"])).toOption.any (fun _ => true) = true := by decide +kernel
  obtain ⟨hscan, hfiles, -⟩ := scan_selects sampleDisk ⟨false, []⟩ sampleRequest hnamed
  obtain ⟨file, hfile, -⟩ := Result.exists_of_any _ _ hread
  obtain ⟨files, hresult⟩ := hscan.mpr ⟨fun scanPath hmem => (Result.exists_of_any _ _ (hlookup scanPath hmem)).imp
    fun _ h => h.1, fun path hselected => ⟨file, by rw [selected_sample_iff.mp hselected, hfile]⟩⟩
  refine ⟨hnamed, files, hresult, fun relPath => ⟨?_, ?_⟩⟩
  · rintro ⟨file, hmem, rfl⟩
    obtain ⟨path, hselected, hrelPath, -⟩ := ((hfiles files hresult).2 file).mp hmem
    rw [hrelPath, selected_sample_iff.mp hselected, hpath]
  · rintro rfl
    have hrelPath := relPath_of_readFound hfile
    exact ⟨file, ((hfiles files hresult).2 file).mpr ⟨_, selected_sample_iff.mpr rfl, hrelPath, hfile⟩,
      hrelPath.trans hpath⟩

/-- A name of that many letters. -/
def nameOfSize (size : Nat) : String := String.ofList (List.replicate size 'a')

theorem eq_of_mem_nameOfSize {size : Nat} {c : Char} (h : c ∈ (nameOfSize size).toList) : c = 'a' := by
  rw [nameOfSize, String.toList_ofList] at h
  exact List.eq_of_mem_replicate h

theorem utf8ByteSize_nameOfSize (size : Nat) : (nameOfSize size).utf8ByteSize = size := by
  rw [nameOfSize, String.utf8ByteSize_ofList]
  induction size with
  | zero => rfl
  | succ size ih =>
    rw [List.replicate_succ, String.utf8Len_cons, ih]
    rfl

theorem isName_nameOfSize {size : Nat} (h : size ≠ 0) : Disk.IsName (nameOfSize size) := by
  have hletter : ∀ {text : String}, 'a' ∉ text.toList → nameOfSize size ≠ text := by
    rintro text htext rfl
    exact htext (by simp [nameOfSize, h])
  exact ⟨hletter (by decide), fun hslash => absurd (eq_of_mem_nameOfSize hslash) (by decide), hletter (by decide),
    hletter (by decide)⟩

/-- It cannot be said where a name leads that is too long. -/
theorem resolve_nameOfSize {size : Nat} {last : Bool} (h : Disk.maxName < size) :
    disk.resolve ⟨false, [nameOfSize size]⟩ last = .error .nameTooLong := by
  have hname : Disk.IsName (nameOfSize size) := isName_nameOfSize (by omega)
  have hcontains : ¬ Text.contains (nameOfSize size) "\x00" = true := by
    rw [Text.contains_singleton (c := '\x00') (by decide)]
    exact fun hnul => absurd (eq_of_mem_nameOfSize hnul) (by decide)
  unfold Disk.resolve
  split
  · rfl
  · simp [hcontains, Disk.follow, Disk.followSegments, hname.ne_here, hname.ne_up, utf8ByteSize_nameOfSize, h,
      Disk.maxLinks]

/-- **A missing path is not passed over** if its name is too long. -/
theorem scan_not_passing_over : ¬ ∀ (disk : Disk) (root : Location) (request : Request), disk.IsNamed →
    ((∃ files, (scan disk root request).result = .ok files) ↔
      ∀ path, Selected disk root request path →
        ∃ file, readFound disk request.withUsages (.ofPath root path) = .ok file) := by
  intro h
  have hpaths := h ⟨[], []⟩ ⟨false, []⟩
    { scanPaths := [nameOfSize 256], ignorePaths := [], includesTests := false, withUsages := false }
    (by simp [Disk.IsNamed])
  have hparts : partsOf (nameOfSize 256) = [nameOfSize 256] := partsOf_of_isName (isName_nameOfSize (by decide))
  have hresolve : Disk.resolve ⟨[], []⟩ ((⟨false, []⟩ : Location).below (partsOf (nameOfSize 256))) true =
      .error .nameTooLong := by
    rw [hparts]
    exact resolve_nameOfSize (by decide)
  have hscan := hpaths.mpr fun path hselected => by
    obtain ⟨scanPath, -, directory, more, node, -, -, hnode⟩ := hselected.exists_node
    cases hnode
  have hlookup := ((exists_scan_iff (by simp [Disk.IsNamed])).mp hscan).1 _ (.head _)
  obtain ⟨found, hfound⟩ := hlookup
  rw [join_trimSlashes] at hfound
  exact (Disk.isDirectory_eq_ok_iff.mp hfound).1 hresolve

end LayerLint.Scan
