import LayerLint.Disk.Walk
import LayerLint.Proofs.Text.Search

/-!
# What a walk finds

A walk goes from directory to directory, and only into those that it may enter. It finds the files of all directories
that can be reached in this way (`mem_filesBelow_iff`), each once (`nodup_filesBelow`). Which directories it passes over
does not matter where nothing below them is asked for (`filter_filesBelow`).
-/

namespace LayerLint

namespace Location

/-- The location is not too long to be listed. -/
def IsListable (location : Location) : Prop := location.toText.utf8ByteSize ≤ Disk.maxPath

instance (location : Location) : Decidable location.IsListable := inferInstanceAs (Decidable (_ ≤ _))

theorem utf8ByteSize_join_le (a b : List String) :
    (Text.join "/" a).utf8ByteSize ≤ (Text.join "/" (a ++ b)).utf8ByteSize := by
  by_cases ha : a = []
  · subst ha
    simp [Text.join]
  · by_cases hb : b = []
    · simp [hb]
    · rw [Text.join_append "/" ha hb, String.utf8ByteSize_append, String.utf8ByteSize_append]
      omega

/-- Where a location can be listed, so can those on the way to it. -/
theorem isListable_of_below {location : Location} {before after : List String}
    (h : (location.below (before ++ after)).IsListable) : (location.below before).IsListable := by
  have hsize := utf8ByteSize_join_le (location.parts ++ before) after
  unfold IsListable toText below at *
  dsimp only at *
  rw [List.append_assoc] at hsize
  split
  · rename_i habsolute
    rw [if_pos habsolute, String.utf8ByteSize_append] at h
    rw [String.utf8ByteSize_append]
    omega
  · rename_i habsolute
    rw [if_neg habsolute] at h
    split
    · decide
    · rename_i hne
      rw [if_neg] at h
      · omega
      · simp only [List.isEmpty_iff, List.append_eq_nil_iff] at hne ⊢
        exact fun hnil => hne ⟨hnil.1, hnil.2.1⟩

end Location

namespace Disk

/-! ## Names -/

/-- A name of a file or directory. -/
structure IsName (name : String) : Prop where
  ne_empty : name ≠ ""
  noSlash : '/' ∉ name.toList
  ne_here : name ≠ "."
  ne_up : name ≠ ".."

instance (name : String) : Decidable (IsName name) :=
  decidable_of_iff (name ≠ "" ∧ '/' ∉ name.toList ∧ name ≠ "." ∧ name ≠ "..")
    ⟨fun ⟨h1, h2, h3, h4⟩ => ⟨h1, h2, h3, h4⟩, fun ⟨h1, h2, h3, h4⟩ => ⟨h1, h2, h3, h4⟩⟩

/-- The paths of the disk are made of names. -/
def IsNamed (disk : Disk) : Prop := ∀ entry ∈ disk.nodes, ∀ name ∈ entry.1, IsName name

instance (disk : Disk) : Decidable disk.IsNamed := inferInstanceAs (Decidable (∀ entry ∈ disk.nodes, _))

theorem IsNamed.isName {disk : Disk} (h : disk.IsNamed) {path : List String} {node : Node}
    (hnode : disk.node? path = some node) {name : String} (hname : name ∈ path) : IsName name := by
  rw [node?, if_neg (by simpa using List.ne_nil_of_mem hname)] at hnode
  obtain ⟨before, after, hnodes, -⟩ := List.lookup_eq_some_iff.mp hnode
  exact h (path, node) (by simp [hnodes]) name hname

/-! ## Listing a directory -/

theorem mem_names_iff {disk : Disk} {path : List String} {name : String} :
    name ∈ disk.names path ↔ ∃ node, (path ++ [name], node) ∈ disk.nodes := by
  unfold names
  rw [List.mem_filterMap]
  constructor
  · rintro ⟨⟨entry, node⟩, hmem, h⟩
    dsimp only at h
    split at h
    · rename_i last hlast
      split at h
      · rename_i hpath
        cases h
        refine ⟨node, ?_⟩
        rw [← hpath, List.dropLast_append_getLast? _ hlast]
        exact hmem
      · cases h
    · cases h
  · rintro ⟨node, hmem⟩
    exact ⟨_, hmem, by simp⟩

/-- What stands in a directory has its name there. -/
theorem mem_names_of_node? {disk : Disk} {path : List String} {name : String} {node : Node}
    (h : disk.node? (path ++ [name]) = some node) : name ∈ disk.names path := by
  rw [node?, if_neg (by simp)] at h
  obtain ⟨before, after, hnodes, -⟩ := List.lookup_eq_some_iff.mp h
  exact mem_names_iff.mpr ⟨node, by simp [hnodes]⟩

theorem mem_listing_iff {disk : Disk} {location : Location} {path : List String} {name : String} :
    name ∈ disk.listing location path ↔ location.IsListable ∧ name ∈ disk.names path := by
  unfold listing Location.IsListable
  split
  · rename_i hlong
    simp [Nat.not_le.mpr hlong]
  · rename_i hshort
    simp [Text.sort, Nat.not_lt.mp hshort]

theorem nodup_listing (disk : Disk) (location : Location) (path : List String) :
    (disk.listing location path).Nodup := by
  unfold listing
  split
  · exact List.nodup_nil
  · exact (List.mergeSort_perm _ _).nodup_iff.mpr (Text.nodup_distinct _)

/-! ## The levels of a walk -/

theorem length_le_levelsBelow {disk : Disk} {directory rest : List String} {node : Node}
    (h : disk.node? (directory ++ rest) = some node) : rest.length ≤ disk.levelsBelow directory := by
  by_cases hrest : rest = []
  · simp [hrest]
  · rw [node?, if_neg (by simp [hrest])] at h
    obtain ⟨before, after, hnodes, -⟩ := List.lookup_eq_some_iff.mp h
    have hbelow : pathBelow? directory (directory ++ rest) = some rest := by
      have hlength := List.length_pos_iff.mpr hrest
      unfold pathBelow?
      rw [if_pos]
      · simp
      · simp only [Bool.and_eq_true, List.isPrefixOf_iff_prefix, decide_eq_true_eq, List.length_append]
        exact ⟨List.prefix_append _ _, by omega⟩
    unfold levelsBelow
    rw [hnodes]
    clear hnodes h
    induction before with
    | nil => simp [hbelow]
    | cons entry before ih => exact Nat.le_trans ih (Nat.le_max_right _ _)

/-! ## Reaching directories -/

/-- The directories that can be reached from a directory through real subdirectories that `enters` allows to go into. -/
inductive Reaches (disk : Disk) (directory : List String) (enters : List String → Bool) : List String → Prop where
  | here : Reaches disk directory enters []
  | into {way : List String} {name : String} (h : Reaches disk directory enters way)
      (hnode : disk.node? (directory ++ way ++ [name]) = some .directory) (henters : enters (way ++ [name]) = true) :
      Reaches disk directory enters (way ++ [name])

theorem Reaches.mono {disk : Disk} {directory way : List String} {enters wider : List String → Bool}
    (hwider : ∀ way name, enters (way ++ [name]) = true → wider (way ++ [name]) = true)
    (h : disk.Reaches directory enters way) : disk.Reaches directory wider way := by
  induction h with
  | here => exact .here
  | into _ hnode henters ih => exact ih.into hnode (hwider _ _ henters)

/-- A file stands in the directory at `way`, which can be listed. -/
structure HoldsFile (disk : Disk) (start : Location) (directory way : List String) (name : String) : Prop where
  listable : (start.below way).IsListable
  file : disk.isFileEntry (start.below (way ++ [name])) (disk.node? (directory ++ way ++ [name])) = true

section Walk

variable {disk : Disk} {start : Location} {directory way path : List String} {enters : List String → Bool}
  {levels : Nat} {name : String}

theorem HoldsFile.exists_node (h : disk.HoldsFile start directory way name) :
    ∃ node, disk.node? (directory ++ way ++ [name]) = some node := by
  cases hnode : disk.node? (directory ++ way ++ [name]) with
  | none =>
    have hfile := h.file
    rw [hnode] at hfile
    cases hfile
  | some node => exact ⟨node, rfl⟩

/-- A file that is held stands on the disk. -/
theorem HoldsFile.exists_mem (h : disk.HoldsFile start directory way name) :
    ∃ node, (directory ++ way ++ [name], node) ∈ disk.nodes := by
  obtain ⟨node, hnode⟩ := h.exists_node
  rw [node?, if_neg (by simp)] at hnode
  obtain ⟨before, after, hnodes, -⟩ := List.lookup_eq_some_iff.mp hnode
  exact ⟨node, by simp [hnodes]⟩

/-- One step of a walk. -/
theorem mem_walk_succ_iff : path ∈ disk.walk start directory enters (levels + 1) way ↔
    (∃ name, disk.HoldsFile start directory way name ∧ path = way ++ [name]) ∨
      ∃ name, (start.below way).IsListable ∧ disk.node? (directory ++ way ++ [name]) = some .directory ∧
        enters (way ++ [name]) = true ∧ path ∈ disk.walk start directory enters levels (way ++ [name]) := by
  simp only [walk, List.mem_append, List.mem_map, List.mem_flatMap, List.mem_filter, mem_listing_iff, Bool.and_eq_true,
    decide_eq_true_eq]
  constructor
  · rintro (⟨name, ⟨⟨hlist, -⟩, hfile⟩, rfl⟩ | ⟨name, ⟨⟨hlist, -⟩, hnode, henters⟩, hpath⟩)
    · exact .inl ⟨name, ⟨hlist, hfile⟩, rfl⟩
    · exact .inr ⟨name, hlist, hnode, henters, hpath⟩
  · rintro (⟨name, hholds, rfl⟩ | ⟨name, hlist, hnode, henters, hpath⟩)
    · obtain ⟨node, hnode⟩ := hholds.exists_node
      exact .inl ⟨name, ⟨⟨hholds.listable, mem_names_of_node? hnode⟩, hholds.file⟩, rfl⟩
    · exact .inr ⟨name, ⟨⟨hlist, mem_names_of_node? hnode⟩, hnode, henters⟩, hpath⟩

/-- What a walk finds lies in a directory that it reaches. -/
theorem reaches_of_mem_walk (hway : disk.Reaches directory enters way)
    (h : path ∈ disk.walk start directory enters levels way) :
    ∃ holder name, disk.Reaches directory enters holder ∧ disk.HoldsFile start directory holder name ∧
      path = holder ++ [name] := by
  induction levels generalizing way with
  | zero => cases h
  | succ levels ih =>
    rcases mem_walk_succ_iff.mp h with ⟨name, hholds, rfl⟩ | ⟨name, -, hnode, henters, hpath⟩
    · exact ⟨way, name, hway, hholds, rfl⟩
    · exact ih (hway.into hnode henters) hpath

/-- A walk finds what a walk from a directory that it reaches finds, if it has the levels to get there. -/
theorem mem_walk_of_reaches (hway : disk.Reaches directory enters way) (hlist : (start.below way).IsListable)
    (h : path ∈ disk.walk start directory enters levels way) :
    path ∈ disk.walk start directory enters (levels + way.length) [] := by
  induction hway generalizing levels with
  | here => exact h
  | @into way name hway hnode henters ih =>
    have hlist' := Location.isListable_of_below hlist
    have hstep : path ∈ disk.walk start directory enters (levels + 1) way :=
      mem_walk_succ_iff.mpr (.inr ⟨name, hlist', hnode, henters, h⟩)
    have hmem := ih hlist' hstep
    rw [List.length_append, List.length_singleton]
    rwa [Nat.add_right_comm, Nat.add_assoc] at hmem

/-- **A walk finds the files of the directories that can be reached.** -/
theorem mem_filesBelow_iff : path ∈ disk.filesBelow start directory enters ↔
    ∃ way name, disk.Reaches directory enters way ∧ disk.HoldsFile start directory way name ∧ path = way ++ [name] := by
  constructor
  · exact reaches_of_mem_walk .here
  · rintro ⟨way, name, hway, hholds, rfl⟩
    obtain ⟨node, hnode⟩ := hholds.exists_node
    rw [List.append_assoc] at hnode
    have hlevels := length_le_levelsBelow hnode
    rw [List.length_append, List.length_singleton] at hlevels
    have hmem : way ++ [name] ∈
        disk.walk start directory enters (disk.levelsBelow directory - way.length - 1 + 1) way :=
      mem_walk_succ_iff.mpr (.inl ⟨name, hholds, rfl⟩)
    have hfound := mem_walk_of_reaches hway hholds.listable hmem
    unfold filesBelow
    convert hfound using 2
    omega

/-! ## Each file once -/

/-- What a walk finds from a directory on lies below it. -/
theorem exists_append_of_mem_walk (h : path ∈ disk.walk start directory enters levels way) :
    ∃ name more, path = way ++ name :: more := by
  induction levels generalizing way with
  | zero => cases h
  | succ levels ih =>
    rcases mem_walk_succ_iff.mp h with ⟨name, -, rfl⟩ | ⟨name, -, -, -, hpath⟩
    · exact ⟨name, [], rfl⟩
    · obtain ⟨next, more, rfl⟩ := ih hpath
      exact ⟨name, next :: more, by simp⟩

theorem nodup_walk : (disk.walk start directory enters levels way).Nodup := by
  induction levels generalizing way with
  | zero => exact List.nodup_nil
  | succ levels ih =>
    have hnames := nodup_listing disk (start.below way) (directory ++ way)
    unfold walk
    dsimp only
    refine List.Nodup.append ?_ (List.nodup_flatMap.mpr ⟨fun name _ => ih, ?_⟩) ?_
    · exact (hnames.filter _).map fun a b hab => by simpa using hab
    · refine (hnames.filter _).imp ?_
      intro a b hab path ha hb
      obtain ⟨next, more, rfl⟩ := exists_append_of_mem_walk ha
      obtain ⟨next', more', heq⟩ := exists_append_of_mem_walk hb
      exact hab (by simpa using heq : a = b ∧ _).1
    · intro path hfile hbelow
      obtain ⟨name, -, rfl⟩ := List.mem_map.mp hfile
      obtain ⟨name', -, hpath⟩ := List.mem_flatMap.mp hbelow
      obtain ⟨next, more, heq⟩ := exists_append_of_mem_walk hpath
      simp at heq

/-- A walk finds each file once. -/
theorem nodup_filesBelow (disk : Disk) (start : Location) (directory : List String) (enters : List String → Bool) :
    (disk.filesBelow start directory enters).Nodup := nodup_walk

/-! ## What is passed over -/

variable {wider keeps : List String → Bool}

theorem filter_flatMap_filter {α β : Type} {items : List α} {p q : α → Bool} {f g : α → List β} {keeps : β → Bool}
    (h : ∀ a, (if p a then (f a).filter keeps else []) = if q a then (g a).filter keeps else []) :
    ((items.filter p).flatMap f).filter keeps = ((items.filter q).flatMap g).filter keeps := by
  have hone : ∀ {r : α → Bool} {k : α → List β} {items : List α},
      ((items.filter r).flatMap k).filter keeps = items.flatMap fun a => if r a then (k a).filter keeps else [] := by
    intro r k items
    induction items with
    | nil => rfl
    | cons a items ih => by_cases hr : r a <;> simp [hr, ih]
  rw [hone, hone]
  exact congrArg items.flatMap (funext h)

theorem filter_walk (hwider : ∀ way ≠ [], enters way = true → wider way = true)
    (h : ∀ way ≠ [], wider way = true → enters way = false → ∀ name more, keeps (way ++ name :: more) = false) :
    (disk.walk start directory enters levels way).filter keeps =
      (disk.walk start directory wider levels way).filter keeps := by
  induction levels generalizing way with
  | zero => rfl
  | succ levels ih =>
    unfold walk
    dsimp only
    rw [List.filter_append, List.filter_append]
    congr 1
    apply filter_flatMap_filter
    intro name
    have hne : way ++ [name] ≠ [] := by simp
    cases henters : enters (way ++ [name]) with
    | true => rw [hwider _ hne henters, ih]
    | false =>
      cases hwide : wider (way ++ [name]) with
      | false => simp
      | true =>
        -- a subdirectory that only the wider walk enters holds nothing that is kept
        have hpassed : (disk.walk start directory wider levels (way ++ [name])).filter keeps = [] := by
          refine List.filter_eq_nil_iff.mpr fun path hpath => ?_
          obtain ⟨next, more, rfl⟩ := exists_append_of_mem_walk hpath
          rw [h _ hne hwide henters]
          decide
        simp [hpassed]

/-- **Passing directories over does not matter where nothing below them is kept.** -/
theorem filter_filesBelow (hwider : ∀ way ≠ [], enters way = true → wider way = true)
    (h : ∀ way ≠ [], wider way = true → enters way = false → ∀ name more, keeps (way ++ name :: more) = false) :
    (disk.filesBelow start directory enters).filter keeps = (disk.filesBelow start directory wider).filter keeps :=
  filter_walk hwider h

end Walk

end Disk

end LayerLint
