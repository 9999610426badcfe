import LayerLint.Disk.Access
import LayerLint.Proofs.Text.Lines
import Mathlib.Tactic.Common

/-!
# What writing keeps

Writing files and making directories only adds to a disk: what stood there still stands there, files perhaps with
other bytes (`Extends`).

- A location that leads to something leads there on every extension (`Extends.resolve_present`), and one
  that leads to a free name leads to what is put there (`Extends.resolve`).
- Writing and making directories extend the disk (`extends_writeText`, `extends_makeDirectories`).
- A file that was written holds its text (`find?_writeText`), and a file elsewhere keeps its text
  (`readText_writeText_other`). A text can be written where a file stands (`exists_writeText`), and writing what the
  file holds changes nothing (`writeText_same`).
-/

namespace LayerLint.Disk

variable {disk other written : Disk} {location : Location} {path : List String} {last : Bool}

/-! ## Nodes -/

theorem lookup_setNode (path : List String) (node : Node) (nodes : List (List String × Node)) (q : List String) :
    (setNode path node nodes).lookup q = if q = path then some node else nodes.lookup q := by
  induction nodes with
  | nil => by_cases hq : q = path <;> simp [setNode, List.lookup_cons, beq_eq_decide, hq]
  | cons entry rest ih =>
    obtain ⟨p, n⟩ := entry
    rw [setNode, List.lookup_cons]
    by_cases hp : p = path
    · by_cases hq : q = p <;> simp [List.lookup_cons, beq_eq_decide, ← hp, hq]
    · by_cases hq : q = p
      · simp [hp, hq]
      · simp [List.lookup_cons, beq_eq_decide, hp, hq, ih]

theorem setNode_same {path : List String} {node : Node} {nodes : List (List String × Node)}
    (h : nodes.lookup path = some node) : setNode path node nodes = nodes := by
  induction nodes with
  | nil => simp at h
  | cons entry rest ih =>
    obtain ⟨p, n⟩ := entry
    rw [List.lookup_cons] at h
    by_cases hp : p = path
    · have hn : n = node := by simpa [hp] using h
      simp [setNode, hp, hn]
    · have hrest : rest.lookup path = some node := by simpa [beq_eq_decide, Ne.symm hp] using h
      simp [setNode, hp, ih hrest]

/-- Where nothing or a file stands there is no root. -/
theorem ne_nil_of_node? {node : Option Node} (h : disk.node? path = node) (hnode : node ≠ some .directory) :
    path ≠ [] := by
  rintro rfl
  exact hnode (h.symm.trans rfl)

theorem node?_put (hpath : path ≠ []) (node : Node) (q : List String) :
    (disk.put path node).node? q = if q = path then some node else disk.node? q := by
  by_cases hq : q = []
  · subst hq
    simp [node?, Ne.symm hpath]
  · simp [node?, put, hq, lookup_setNode]

/-! ## Extensions of a disk -/

/-- Nodes of one kind: files, or the same directory or link. -/
def SameKind : Node → Node → Prop
  | .file _, .file _ => True
  | m, n => m = n

theorem SameKind.refl (node : Node) : SameKind node node := by cases node <;> simp [SameKind]

theorem SameKind.trans {a b c : Node} (hab : SameKind a b) (hbc : SameKind b c) : SameKind a c := by
  cases a <;> cases b <;> cases c <;> simp_all [SameKind]

theorem SameKind.file {content : ByteArray} {node : Node} (h : SameKind (.file content) node) :
    ∃ kept, node = .file kept := by
  cases node with
  | file kept => exact ⟨kept, rfl⟩
  | directory | link _ => cases h

/-- What stands on the disk stands on the other one too, perhaps with other bytes in the files. -/
structure Extends (disk other : Disk) : Prop where
  current : other.current = disk.current
  node? : ∀ {path node}, disk.node? path = some node → ∃ kept, other.node? path = some kept ∧ SameKind node kept

namespace Extends

protected theorem refl (disk : Disk) : Extends disk disk := ⟨rfl, fun {_ node} h => ⟨node, h, .refl node⟩⟩

protected theorem trans {third : Disk} (h : Extends disk other) (h' : Extends other third) : Extends disk third := by
  refine ⟨h'.current.trans h.current, fun hnode => ?_⟩
  obtain ⟨kept, hkept, hkind⟩ := h.node? hnode
  obtain ⟨last, hlast, hkind'⟩ := h'.node? hkept
  exact ⟨last, hlast, hkind.trans hkind'⟩

/-- Putting something at a free path, or a file in place of a file, extends the disk. -/
theorem put {node : Node} (h : ∀ old, disk.node? path = some old → SameKind old node)
    (hpath : path ≠ []) : Extends disk (disk.put path node) := by
  refine ⟨rfl, fun {q old} hq => ?_⟩
  rw [node?_put hpath]
  split
  · rename_i heq
    exact ⟨node, rfl, h old (heq ▸ hq)⟩
  · exact ⟨old, hq, .refl old⟩

end Extends

/-! ## Where locations lead -/

/-- What becomes of a target when more stands on the disk. -/
def Target.on (other : Disk) : Target → Target
  | .present path => .present path
  | .absent path => if (other.node? path).isSome then .present path else .absent path

/-- A target that is not a free name at which there is a link on the other disk. -/
def Target.Plain (other : Disk) : Target → Prop
  | .present _ => True
  | .absent path => ∀ text, other.node? path ≠ some (.link text)

variable {jump jump' : List String → List String → Except FileError Target} {here rest : List String} {part : String}

/-- The step at a name. -/
theorem followSegments_name (hdot : ¬(part == ".") = true) (hup : ¬(part == "..") = true)
    (hlong : ¬maxName < part.utf8ByteSize) : disk.followSegments last jump here (part :: rest) =
      match disk.node? (here ++ [part]) with
      | none => if rest.isEmpty then .ok (.absent (here ++ [part])) else .error .notFound
      | some .directory => disk.followSegments last jump (here ++ [part]) rest
      | some (.file _) => if rest.isEmpty then .ok (.present (here ++ [part])) else .error .notDirectory
      | some (.link target) =>
        if rest.isEmpty && !last then .ok (.present (here ++ [part]))
        else jump (if Text.startsWith target "/" then [] else here) (linkSegments target ++ rest) := by
  cases hnode : disk.node? (here ++ [part]) with
  | none => simp [followSegments, hdot, hup, hlong, hnode]
  | some node => cases node <;> simp [followSegments, hdot, hup, hlong, hnode]

/-- Segments lead to the same place when more stands on the disk, if the links on the way do. -/
theorem followSegments_on (h : Extends disk other) {target : Target} (ht : target.Plain other)
    (hjump : ∀ here parts, jump here parts = .ok target → jump' here parts = .ok (target.on other))
    (here parts : List String) (hfollow : disk.followSegments last jump here parts = .ok target) :
    other.followSegments last jump' here parts = .ok (target.on other) := by
  fun_induction followSegments disk last jump here parts with
  | case1 here =>
    obtain rfl : Target.present here = target := by simpa using hfollow
    rw [followSegments, Target.on]
  | case2 here part rest hdot ih =>
    rw [followSegments, if_pos hdot]
    exact ih hfollow
  | case3 here part rest hdot hup ih =>
    rw [followSegments, if_neg hdot, if_pos hup]
    exact ih hfollow
  | case4 | case6 | case9 => cases hfollow
  | case5 here part rest hdot hup hlong next hnode hrest =>
    -- a free name at the end, at which something may stand now
    obtain rfl : Target.absent next = target := by simpa using hfollow
    rw [followSegments_name hdot hup hlong, List.isEmpty_iff.mp hrest, Target.on]
    cases hother : other.node? (here ++ [part]) with
    | none => simp [next]
    | some node =>
      cases node with
      | file _ | directory => simp [next, followSegments]
      | link text => exact absurd hother (ht text)
  | case7 here part rest hdot hup hlong next hnode ih =>
    obtain ⟨kept, hkept, hkind⟩ := h.node? hnode
    obtain rfl : Node.directory = kept := hkind
    rw [followSegments_name hdot hup hlong, hkept]
    exact ih hfollow
  | case8 here part rest hdot hup hlong next content hnode hrest =>
    obtain rfl : Target.present next = target := by simpa using hfollow
    obtain ⟨kept, hkept, hkind⟩ := h.node? hnode
    obtain ⟨content', rfl⟩ := SameKind.file hkind
    rw [followSegments_name hdot hup hlong, hkept]
    simp [hrest, Target.on, next]
  | case10 here part rest hdot hup hlong next text hnode hstop =>
    obtain rfl : Target.present next = target := by simpa using hfollow
    obtain ⟨kept, hkept, hkind⟩ := h.node? hnode
    obtain rfl : Node.link text = kept := hkind
    rw [followSegments_name hdot hup hlong, hkept]
    simp [hstop, Target.on, next]
  | case11 here part rest hdot hup hlong next text hnode hstop =>
    obtain ⟨kept, hkept, hkind⟩ := h.node? hnode
    obtain rfl : Node.link text = kept := hkind
    rw [followSegments_name hdot hup hlong, hkept]
    exact (if_neg hstop).trans (hjump _ _ hfollow)

theorem follow_on (h : Extends disk other) {target : Target} (ht : target.Plain other) (links : Nat) :
    ∀ here parts, disk.follow last links here parts = .ok target →
      other.follow last links here parts = .ok (target.on other) := by
  induction links with
  | zero => exact followSegments_on h ht (by simp)
  | succ links ih => exact followSegments_on h ht ih

theorem node?_of_followSegments_absent
    (hjump : ∀ here parts, jump here parts = .ok (.absent path) → disk.node? path = none)
    (here parts : List String) (hfollow : disk.followSegments last jump here parts = .ok (.absent path)) :
    disk.node? path = none := by
  fun_induction followSegments disk last jump here parts with
  | case1 | case4 | case6 | case8 | case9 | case10 => cases hfollow
  | case2 here part rest hdot ih | case3 here part rest hdot hup ih => exact ih hfollow
  | case5 here part rest hdot hup hlong next hnode hrest =>
    obtain rfl : next = path := by simpa using hfollow
    exact hnode
  | case7 here part rest hdot hup hlong next hnode ih => exact ih hfollow
  | case11 => exact hjump _ _ hfollow

theorem node?_of_follow_absent (links : Nat) :
    ∀ here parts, disk.follow last links here parts = .ok (.absent path) → disk.node? path = none := by
  induction links with
  | zero => exact node?_of_followSegments_absent (by simp)
  | succ links ih => exact node?_of_followSegments_absent ih

/-- **A location leads to the same place on an extension**, where something stands if it was put there. -/
theorem Extends.resolve (h : Extends disk other) {target : Target} (ht : target.Plain other)
    (hresolve : disk.resolve location last = .ok target) :
    other.resolve location last = .ok (target.on other) := by
  rw [Disk.resolve] at hresolve ⊢
  split at hresolve
  · cases hresolve
  · split at hresolve
    · cases hresolve
    · rename_i hlong hzero
      rw [if_neg hlong, if_neg hzero, h.current]
      exact follow_on h ht maxLinks _ _ hresolve

/-- What a location leads to stays there. -/
theorem Extends.resolve_present (h : Extends disk other)
    (hresolve : disk.resolve location last = .ok (.present path)) :
    other.resolve location last = .ok (.present path) :=
  have hplain : Target.Plain other (.present path) := trivial
  h.resolve hplain hresolve

/-- A free name is one at which nothing stands. -/
theorem node?_of_resolve_absent (h : disk.resolve location last = .ok (.absent path)) : disk.node? path = none := by
  rw [Disk.resolve] at h
  split at h
  · cases h
  · split at h
    · cases h
    · exact node?_of_follow_absent maxLinks _ _ h

theorem find?_eq_some_iff {node : Node} : disk.find? location = .ok (some node) ↔
    ∃ path, disk.resolve location true = .ok (.present path) ∧ disk.node? path = some node := by
  rw [find?]
  split <;> simp_all

theorem pathExists_eq (disk : Disk) (location : Location) :
    disk.pathExists location = (disk.find? location).map Option.isSome := by
  rw [pathExists]
  cases disk.find? location <;> rfl

theorem isFile_eq_ok_true_iff :
    disk.isFile location = .ok true ↔ ∃ content, disk.find? location = .ok (some (.file content)) := by
  rw [isFile]
  cases disk.find? location with
  | error e => simp [bind, Except.bind]
  | ok found =>
    cases found with
    | none => simp [bind, Except.bind, pure, Except.pure]
    | some node => cases node <;> simp [bind, Except.bind, pure, Except.pure]

theorem Extends.find? {node : Node} (h : Extends disk other) (hfind : disk.find? location = .ok (some node)) :
    ∃ kept, other.find? location = .ok (some kept) ∧ SameKind node kept := by
  obtain ⟨path, hresolve, hnode⟩ := find?_eq_some_iff.mp hfind
  obtain ⟨kept, hkept, hkind⟩ := h.node? hnode
  exact ⟨kept, find?_eq_some_iff.mpr ⟨path, h.resolve_present hresolve, hkept⟩, hkind⟩

/-! ## Writing -/

/-- The path that a file is written to: a free name, or the place of a file. -/
def IsWritable (disk : Disk) (location : Location) (path : List String) : Prop :=
  disk.resolve location true = .ok (.absent path) ∨
    disk.resolve location true = .ok (.present path) ∧ ∃ content, disk.node? path = some (.file content)

theorem writeText_eq_ok_iff {text : String} : disk.writeText location text = .ok written ↔
    ∃ path, IsWritable disk location path ∧ written = disk.put path (.file text.toUTF8) := by
  rw [writeText, writeBytes]
  cases hresolve : disk.resolve location true with
  | error e => simp [IsWritable, hresolve, bind, Except.bind]
  | ok target =>
    cases target with
    | absent path => simp [IsWritable, hresolve, bind, Except.bind, eq_comm]
    | present path =>
      simp only [IsWritable, hresolve, bind, Except.bind]
      cases hnode : disk.node? path with
      | none => simp [hnode]
      | some node => cases node <;> simp [hnode, eq_comm]

/-- The node at such a path is none, or a file. -/
theorem IsWritable.node? (h : IsWritable disk location path) {old : Node} (hold : disk.node? path = some old) :
    ∃ content, old = .file content := by
  rcases h with habsent | ⟨-, content, hcontent⟩
  · rw [node?_of_resolve_absent habsent] at hold
    cases hold
  · exact ⟨content, Option.some.inj (hold.symm.trans hcontent)⟩

theorem IsWritable.ne_nil (h : IsWritable disk location path) : path ≠ [] := by
  rintro rfl
  have hroot : disk.node? [] = some .directory := rfl
  obtain ⟨content, hcontent⟩ := h.node? hroot
  cases hcontent

/-- Writing a file extends the disk. -/
theorem extends_writeText {text : String} (h : disk.writeText location text = .ok written) : Extends disk written := by
  obtain ⟨path, hpath, rfl⟩ := writeText_eq_ok_iff.mp h
  refine Extends.put (fun old hold => ?_) hpath.ne_nil
  obtain ⟨content, rfl⟩ := hpath.node? hold
  trivial

/-- **A file that was written holds its text.** -/
theorem find?_writeText {text : String} (h : disk.writeText location text = .ok written) :
    written.find? location = .ok (some (.file text.toUTF8)) := by
  have hext := extends_writeText h
  obtain ⟨path, hpath, rfl⟩ := writeText_eq_ok_iff.mp h
  have hnode : (disk.put path (.file text.toUTF8)).node? path = some (.file text.toUTF8) := by
    rw [node?_put hpath.ne_nil, if_pos rfl]
  refine find?_eq_some_iff.mpr ⟨path, ?_, hnode⟩
  rcases hpath with habsent | ⟨hpresent, -⟩
  · have hplain : Target.Plain (disk.put path (.file text.toUTF8)) (.absent path) := by
      intro target
      rw [hnode]
      simp
    rw [hext.resolve hplain habsent, Target.on, hnode]
    rfl
  · exact hext.resolve_present hpresent

/-- A text can be written where a file stands. -/
theorem exists_writeText {content : ByteArray} (h : disk.find? location = .ok (some (.file content)))
    (text : String) : ∃ written, disk.writeText location text = .ok written := by
  obtain ⟨path, hpath, hnode⟩ := find?_eq_some_iff.mp h
  exact ⟨_, writeText_eq_ok_iff.mpr ⟨path, .inr ⟨hpath, content, hnode⟩, rfl⟩⟩

/-- Writing what a file holds changes nothing. -/
theorem writeText_same {text : String} (h : disk.find? location = .ok (some (.file text.toUTF8))) :
    disk.writeText location text = .ok disk := by
  obtain ⟨path, hpath, hnode⟩ := find?_eq_some_iff.mp h
  have hwritable : IsWritable disk location path := .inr ⟨hpath, _, hnode⟩
  refine writeText_eq_ok_iff.mpr ⟨path, hwritable, ?_⟩
  have hlookup : disk.nodes.lookup path = some (.file text.toUTF8) := by
    simpa [node?, hwritable.ne_nil] using hnode
  rw [put, setNode_same hlookup]

theorem readBytes_eq_ok_iff {content : ByteArray} : disk.readBytes location = .ok content ↔
    disk.find? location = .ok (some (.file content)) := by
  rw [readBytes, find?_eq_some_iff]
  cases hresolve : disk.resolve location true with
  | error e => simp [bind, Except.bind]
  | ok target =>
    cases target with
    | absent path => simp [bind, Except.bind]
    | present path =>
      cases hnode : disk.node? path with
      | none => simp [bind, Except.bind, hnode]
      | some node => cases node <;> simp [bind, Except.bind, hnode]

theorem decode_toUTF8 (text : String) : Text.decode text.toUTF8 = .ok text := by
  have hvalid : text.toUTF8.IsValidUTF8 := text.isValidUTF8
  rw [Text.decode, String.fromUTF8?, dif_pos hvalid]
  rfl

/-- A text without carriage returns is read as it was written. -/
theorem readText_of_find? {text : String} (h : disk.find? location = .ok (some (.file text.toUTF8)))
    (hreturn : '\r' ∉ text.toList) : disk.readText location = .ok text := by
  rw [readText, readBytes_eq_ok_iff.mpr h]
  dsimp only
  rw [decode_toUTF8]
  dsimp only
  rw [Text.unifyNewlines_of_not_mem hreturn, String.ofList_toList]

/-- Writing to a file leaves the text of a file at another place. -/
theorem readText_writeText_other {place : Location} {text content : String}
    (h : disk.writeText location text = .ok written) (hread : disk.readText place = .ok content)
    (hne : disk.resolve place true ≠ disk.resolve location true) : written.readText place = .ok content := by
  have hbytes : disk.readBytes place = written.readBytes place := by
    cases hold : disk.readBytes place with
    | error e => simp [readText, hold] at hread
    | ok bytes =>
      obtain ⟨path, hresolve, hnode⟩ := find?_eq_some_iff.mp (readBytes_eq_ok_iff.mp hold)
      have hext := extends_writeText h
      obtain ⟨q, hq, rfl⟩ := writeText_eq_ok_iff.mp h
      have hpath : path ≠ q := by
        rintro rfl
        rcases hq with habsent | ⟨hpresent, -⟩
        · rw [node?_of_resolve_absent habsent] at hnode
          cases hnode
        · exact hne (hresolve.trans hpresent.symm)
      have hkept : (disk.put q (.file text.toUTF8)).resolve place true = .ok (.present path) :=
        hext.resolve_present hresolve
      refine (readBytes_eq_ok_iff.mpr (find?_eq_some_iff.mpr ⟨path, hkept, ?_⟩)).symm
      rw [node?_put hq.ne_nil, if_neg hpath]
      exact hnode
  rw [readText, ← hbytes]
  rwa [readText] at hread

/-! ## Making directories -/

theorem extends_makeDirectory (h : disk.makeDirectory location = .ok written) : Extends disk written := by
  rw [makeDirectory] at h
  cases hresolve : disk.resolve location false with
  | error e => simp [hresolve, bind, Except.bind] at h
  | ok target =>
    cases target with
    | present path => simp [hresolve, bind, Except.bind] at h
    | absent path =>
      have hfree := node?_of_resolve_absent hresolve
      obtain rfl : disk.put path .directory = written := by simpa [hresolve, bind, Except.bind] using h
      exact Extends.put (by simp [hfree]) (ne_nil_of_node? hfree (by simp))

/-- Making directories extends the disk, also when one of them cannot be made. -/
theorem extends_makeDirectories (disk : Disk) (location : Location) :
    Extends disk (disk.makeDirectories location).1 := by
  fun_induction makeDirectories disk location with
  | case1 location made hmade => exact extends_makeDirectory hmade
  | case2 | case6 => exact .refl disk
  | case3 location hfirst hparts above e habove ih => rwa [habove] at ih
  | case4 location hfirst hparts above habove made hmade ih =>
    rw [habove] at ih
    exact ih.trans (extends_makeDirectory hmade)
  | case5 location hfirst hparts above habove e hmade ih => rwa [habove] at ih

end LayerLint.Disk
