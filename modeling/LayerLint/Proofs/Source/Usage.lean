import LayerLint.Proofs.OrderedMap
import LayerLint.Proofs.Source.Name

/-!
# The symbols that a file uses

A file uses a symbol of an import where it selects the symbol from a name that calls the import.

- The nodes that are visited are those that stand in the tree at any depth (`SyntaxTree.mem_walk_iff`), and a node is
  read where it is a selection from a plain name (`SyntaxTree.reference?_eq_some_iff`).
- A name calls the path of the last import that binds it (`find?_boundNames_iff`): each import takes its name over from
  the earlier ones (`find?_bindImport`), and it binds the name that it gives or else the last segment of its path
  (`ImportSpec.binds_iff`).
- The used symbols are recorded one by one (`Records.recordUse`), so that in the end they are those selected from called
  names (`records_usagesOf`).

`usages_are_selections` says so of the usages of a tree.
-/

namespace LayerLint.Source

/-! ## Parts of a tree -/

namespace SyntaxTree

/-- A tree is the whole of another or stands in it, at any depth. -/
inductive IsPartOf (part : SyntaxTree) : SyntaxTree → Prop
  | whole : IsPartOf part part
  | child {tree child : SyntaxTree} (hchild : child ∈ tree.children) (h : IsPartOf part child) : IsPartOf part tree

/-- The child is the first of the tree in the field. -/
def IsChildIn (tree : SyntaxTree) (field : String) (child : SyntaxTree) : Prop :=
  ∃ before after, tree.children = before ++ child :: after ∧ child.field = some field ∧
    ∀ other ∈ before, other.field ≠ some field

/-- The node is a plain name. -/
def IsName (tree : SyntaxTree) (name : String) : Prop :=
  (tree.kind = "identifier" ∨ tree.kind = "package_identifier") ∧ tree.text = name

/-- The node selects a member from a plain name, as an expression or as a type. -/
inductive Selects (tree : SyntaxTree) (name symbol : String) : Prop
  | expression {operand member : SyntaxTree} (hkind : tree.kind = "selector_expression")
      (hoperand : tree.IsChildIn "operand" operand) (hmember : tree.IsChildIn "field" member)
      (hname : operand.IsName name) (hsymbol : member.text = symbol)
  | type {operand member : SyntaxTree} (hkind : tree.kind = "qualified_type")
      (hoperand : tree.IsChildIn "package" operand) (hmember : tree.IsChildIn "name" member)
      (hname : operand.IsName name) (hsymbol : member.text = symbol)

variable {tree part child : SyntaxTree} {name symbol field : String}

theorem isPartOf_iff : part.IsPartOf tree ↔ part = tree ∨ ∃ child ∈ tree.children, part.IsPartOf child := by
  constructor
  · rintro (_ | ⟨hchild, h⟩)
    · exact .inl rfl
    · exact .inr ⟨_, hchild, h⟩
  · rintro (rfl | ⟨child, hchild, h⟩)
    · exact .whole
    · exact .child hchild h

/-- **The nodes that are visited are those that stand in a tree of the stack.** -/
theorem mem_walk_iff {stack : List SyntaxTree} : part ∈ walk stack ↔ ∃ tree ∈ stack, part.IsPartOf tree := by
  induction stack using walk.induct with
  | case1 => simp [walk]
  | case2 kind field text children stack ih =>
    have hchildren : (node kind field text children).children = children := rfl
    simp only [walk, List.mem_cons, ih, List.mem_append, or_and_right, exists_or, exists_eq_left, or_assoc,
      @isPartOf_iff (node kind field text children), hchildren]

theorem child?_eq_some_iff : tree.child? field = some child ↔ tree.IsChildIn field child := by
  simp only [child?, IsChildIn, List.find?_eq_some_iff_append, beq_iff_eq, Bool.not_eq_true', beq_eq_false_iff_ne]
  constructor
  · rintro ⟨hfield, before, after, hchildren, hbefore⟩
    exact ⟨before, after, hchildren, hfield, hbefore⟩
  · rintro ⟨before, after, hchildren, hfield, hbefore⟩
    exact ⟨hfield, before, after, hchildren, hbefore⟩

theorem contains_nameKinds {kind : String} :
    nameKinds.contains kind = true ↔ kind = "identifier" ∨ kind = "package_identifier" := by
  simp [nameKinds]

/-- What is read of a node whose operand and member stand in given fields. -/
theorem reference?_of_fields {operandField memberField : String}
    (h : selectionFields? tree.kind = some (operandField, memberField)) :
    tree.reference? = some (name, symbol) ↔ ∃ operand member, tree.IsChildIn operandField operand ∧
      tree.IsChildIn memberField member ∧ operand.IsName name ∧ member.text = symbol := by
  simp only [reference?, h, Option.bind_eq_bind, Option.bind_some, Option.bind_eq_some_iff, child?_eq_some_iff,
    Option.ite_none_right_eq_some, contains_nameKinds, Option.some.injEq, Prod.mk.injEq, IsName]
  constructor
  · rintro ⟨operand, hoperand, member, hmember, hkind, htext, hsymbol⟩
    exact ⟨operand, member, hoperand, hmember, ⟨hkind, htext⟩, hsymbol⟩
  · rintro ⟨operand, member, hoperand, hmember, ⟨hkind, htext⟩, hsymbol⟩
    exact ⟨operand, hoperand, member, hmember, hkind, htext, hsymbol⟩

/-- **A node is read where it selects from a plain name.** -/
theorem reference?_eq_some_iff : tree.reference? = some (name, symbol) ↔ tree.Selects name symbol := by
  by_cases hexpression : tree.kind = "selector_expression"
  · rw [reference?_of_fields (by rw [selectionFields?, if_pos hexpression])]
    constructor
    · rintro ⟨operand, member, hoperand, hmember, hname, hsymbol⟩
      exact .expression hexpression hoperand hmember hname hsymbol
    · rintro (⟨-, hoperand, hmember, hname, hsymbol⟩ | ⟨htype, -⟩)
      · exact ⟨_, _, hoperand, hmember, hname, hsymbol⟩
      · exact absurd (hexpression.symm.trans htype) (by decide)
  by_cases htype : tree.kind = "qualified_type"
  · rw [reference?_of_fields (by rw [selectionFields?, if_neg hexpression, if_pos htype])]
    constructor
    · rintro ⟨operand, member, hoperand, hmember, hname, hsymbol⟩
      exact .type htype hoperand hmember hname hsymbol
    · rintro (⟨hkind, -⟩ | ⟨-, hoperand, hmember, hname, hsymbol⟩)
      · exact absurd hkind hexpression
      · exact ⟨_, _, hoperand, hmember, hname, hsymbol⟩
  · have hnone : selectionFields? tree.kind = none := by rw [selectionFields?, if_neg hexpression, if_neg htype]
    refine iff_of_false (by simp [reference?, hnone]) ?_
    rintro (⟨hkind, -⟩ | ⟨hkind, -⟩)
    · exact hexpression hkind
    · exact htype hkind

/-- The selections of a tree are those that stand in it at any depth. -/
theorem mem_references_iff :
    (name, symbol) ∈ tree.references ↔ ∃ part : SyntaxTree, part.IsPartOf tree ∧ part.Selects name symbol := by
  simp only [references, List.mem_filterMap, mem_walk_iff, List.mem_singleton, exists_eq_left, reference?_eq_some_iff]

end SyntaxTree

/-! ## Names of imports -/

/-- An import binds the name that it gives, or else the last segment of its path; an underscore and a dot are no
names. -/
inductive ImportSpec.Binds : ImportSpec → String → Prop
  | given {path name : String} (hbinds : name ≠ "_" ∧ name ≠ ".") : Binds ⟨path, some name⟩ name
  | last {path name : String} (hlast : (Path.segments path).getLast? = some name)
      (hbinds : name ≠ "_" ∧ name ≠ ".") : Binds ⟨path, none⟩ name

/-- The last import that binds the name has the path. -/
def Calls (imports : List ImportSpec) (name path : String) : Prop :=
  ∃ before spec after, imports = before ++ spec :: after ∧ spec.path = path ∧ spec.Binds name ∧
    ∀ later ∈ after, ¬ later.Binds name

variable {imports : List ImportSpec} {spec : ImportSpec} {name path symbol : String}

theorem not_mem_unboundNames : name ∉ unboundNames ↔ name ≠ "_" ∧ name ≠ "." := by
  simp [unboundNames]

theorem ImportSpec.binds_iff : spec.Binds name ↔ spec.calledName = name ∧ name ∉ unboundNames := by
  rw [not_mem_unboundNames]
  constructor
  · rintro (hbinds | ⟨hlast, hbinds⟩)
    · exact ⟨rfl, hbinds⟩
    · rw [Path.getLast?_segments] at hlast
      exact ⟨Option.some.inj hlast, hbinds⟩
  · rintro ⟨rfl, hbinds⟩
    obtain ⟨path, given⟩ := spec
    cases given with
    | none => exact .last (Path.getLast?_segments path) hbinds
    | some name => exact .given hbinds

/-- An import takes over the name that it binds and leaves the others. -/
theorem find?_bindImport (table : OrderedMap String String) :
    (spec.Binds name → (bindImport table spec).find? name = some spec.path) ∧
      (¬ spec.Binds name → (bindImport table spec).find? name = table.find? name) := by
  rw [ImportSpec.binds_iff, bindImport]
  by_cases hunbound : unboundNames.contains spec.calledName
  · rw [if_pos hunbound]
    refine ⟨?_, fun _ => rfl⟩
    rintro ⟨rfl, hbinds⟩
    exact absurd (List.contains_iff_mem.mp hunbound) hbinds
  · rw [if_neg hunbound, OrderedMap.find?_insert]
    refine ⟨fun h => if_pos h.1.symm, fun h => if_neg ?_⟩
    rintro rfl
    exact h ⟨rfl, fun hmem => hunbound (List.contains_iff_mem.mpr hmem)⟩

/-- The last import calls its name, and any other name is called as before. -/
theorem calls_concat : Calls (imports ++ [spec]) name path ↔
    (spec.Binds name ∧ spec.path = path) ∨ (¬ spec.Binds name ∧ Calls imports name path) := by
  constructor
  · rintro ⟨before, caller, after, heq, hpath, hbinds, hafter⟩
    rcases List.eq_nil_or_concat after with rfl | ⟨after, last, rfl⟩
    · obtain ⟨rfl, hlast⟩ := List.append_inj' heq rfl
      obtain rfl : spec = caller := by simpa using hlast
      exact .inl ⟨hbinds, hpath⟩
    · rw [List.concat_eq_append, ← List.cons_append, ← List.append_assoc] at heq
      obtain ⟨rfl, hlast⟩ := List.append_inj' heq rfl
      obtain rfl : spec = last := by simpa using hlast
      refine .inr ⟨hafter spec (by simp), before, caller, after, rfl, hpath, hbinds, fun later hlater => ?_⟩
      exact hafter later (by simp [hlater])
  · rintro (⟨hbinds, hpath⟩ | ⟨hnot, before, caller, after, rfl, hpath, hbinds, hafter⟩)
    · exact ⟨imports, spec, [], rfl, hpath, hbinds, nofun⟩
    · refine ⟨before, caller, after ++ [spec], by simp, hpath, hbinds, ?_⟩
      rw [List.forall_mem_append, List.forall_mem_singleton]
      exact ⟨hafter, hnot⟩

/-- **A name calls the path of the last import that binds it.** -/
theorem find?_boundNames_iff : (boundNames imports).find? name = some path ↔ Calls imports name path := by
  induction imports using List.reverseRecOn with
  | nil =>
    refine iff_of_false nofun ?_
    rintro ⟨before, spec, after, heq, -⟩
    simp at heq
  | append_singleton imports spec ih =>
    rw [boundNames, List.foldl_append, List.foldl_cons, List.foldl_nil, ← boundNames, calls_concat, ← ih]
    by_cases hbinds : spec.Binds name
    · simp [(find?_bindImport _).1 hbinds, hbinds]
    · simp [(find?_bindImport _).2 hbinds, hbinds]

/-- Two names of one path, and a name that a later import takes over. -/
example : (boundNames [⟨"m/a", none⟩, ⟨"m/b", some "c"⟩, ⟨"m/a", some "b"⟩, ⟨"m/c", none⟩]).entries =
    [("a", "m/a"), ("c", "m/c"), ("b", "m/a")] := by decide +kernel

/-! ## Uses -/

/-- The used symbols of each path are those that `uses` says, each of them once. -/
structure Records (used : OrderedMap String (List String)) (uses : String → String → Prop) : Prop where
  mem_iff : ∀ path symbol, (∃ symbols, used.find? path = some symbols ∧ symbol ∈ symbols) ↔ uses path symbol
  ne_nil : ∀ path symbols, used.find? path = some symbols → symbols ≠ []
  nodup : ∀ path symbols, used.find? path = some symbols → symbols.Nodup

theorem records_empty : Records .empty fun _ _ => False where
  mem_iff _ _ := iff_of_false nofun id
  ne_nil := nofun
  nodup := nofun

theorem mem_insertSymbol {symbols : List String} {other : String} :
    other ∈ (if symbols.contains symbol then symbols else symbols ++ [symbol]) ↔ other ∈ symbols ∨ other = symbol := by
  split
  · rename_i hmem
    refine ⟨.inl, ?_⟩
    rintro (h | rfl)
    · exact h
    · exact List.contains_iff_mem.mp hmem
  · rw [List.mem_append, List.mem_singleton]

/-- **One more selection is recorded** under the path that its name calls. -/
theorem Records.recordUse {table : OrderedMap String String} {used : OrderedMap String (List String)}
    {uses : String → String → Prop} (h : Records used uses) (use : String × String) :
    Records (recordUse table used use) fun path symbol =>
      uses path symbol ∨ (table.find? use.1 = some path ∧ symbol = use.2) := by
  obtain ⟨name, symbol⟩ := use
  rw [Source.recordUse]
  cases hcalled : table.find? name with
  | none =>
    refine ⟨fun path symbol => ?_, h.ne_nil, h.nodup⟩
    simpa using h.mem_iff path symbol
  | some called =>
    dsimp only
    have hold : ∀ other, other ∈ (used.find? called).getD [] ↔ uses called other := fun other => by
      rw [← h.mem_iff]
      cases used.find? called <;> simp
    have hnodup : ((used.find? called).getD []).Nodup := by
      cases hfind : used.find? called with
      | none => exact List.nodup_nil
      | some symbols => exact h.nodup called symbols hfind
    refine ⟨fun path other => ?_, fun path symbols => ?_, fun path symbols => ?_⟩
    · rw [OrderedMap.find?_insert]
      by_cases hpath : path = called
      · simp only [hpath, if_true, Option.some.injEq, exists_eq_left', mem_insertSymbol, hold, true_and]
      · simp only [hpath, if_false, h.mem_iff, Option.some.injEq, Ne.symm hpath, false_and, or_false]
    · rw [OrderedMap.find?_insert]
      split
      · rintro ⟨⟩
        exact List.ne_nil_of_mem (mem_insertSymbol.mpr (.inr rfl))
      · exact h.ne_nil path symbols
    · rw [OrderedMap.find?_insert]
      split
      · rintro ⟨⟩
        split
        · exact hnodup
        · rename_i hnew
          refine hnodup.append (List.nodup_singleton symbol) (List.disjoint_singleton.mpr fun hmem => ?_)
          exact hnew (List.contains_iff_mem.mpr hmem)
      · exact h.nodup path symbols

theorem Records.congr {used : OrderedMap String (List String)} {uses uses' : String → String → Prop}
    (h : Records used uses) (hsame : ∀ path symbol, uses path symbol ↔ uses' path symbol) : Records used uses' :=
  ⟨fun path symbol => (h.mem_iff path symbol).trans (hsame path symbol), h.ne_nil, h.nodup⟩

/-- The selections are recorded under the paths that their names call. -/
theorem records_foldl (table : OrderedMap String String) (references : List (String × String)) :
    Records (references.foldl (recordUse table) .empty) fun path symbol =>
      ∃ name, (name, symbol) ∈ references ∧ table.find? name = some path := by
  induction references using List.reverseRecOn with
  | nil => exact records_empty.congr fun path symbol => by simp
  | append_singleton references use ih =>
    rw [List.foldl_append, List.foldl_cons, List.foldl_nil]
    refine (ih.recordUse use).congr fun path symbol => ?_
    simp only [List.mem_append, List.mem_singleton, or_and_right, exists_or]
    refine or_congr_right ⟨?_, ?_⟩
    · rintro ⟨hcalled, rfl⟩
      exact ⟨use.1, rfl, hcalled⟩
    · rintro ⟨name, rfl, hcalled⟩
      exact ⟨hcalled, rfl⟩

/-- The file selects the symbol from a name that calls the path. -/
def Uses (tree : SyntaxTree) (imports : List ImportSpec) (path symbol : String) : Prop :=
  ∃ name, Calls imports name path ∧ ∃ part : SyntaxTree, part.IsPartOf tree ∧ part.Selects name symbol

/-- **The used symbols are those selected from called names.** -/
theorem records_usagesOf (tree : SyntaxTree) (imports : List ImportSpec) :
    Records (tree.references.foldl (recordUse (boundNames imports)) .empty) (Uses tree imports) := by
  refine (records_foldl (boundNames imports) tree.references).congr fun path symbol => ?_
  simp only [find?_boundNames_iff, SyntaxTree.mem_references_iff, Uses]
  exact exists_congr fun name => and_comm

/-- The entries of the usages are the symbols of each path that are recorded, sorted. -/
theorem mem_usages {tree : SyntaxTree} {symbols : List String} : (path, symbols) ∈ usages tree imports ↔
    ∃ found, (tree.references.foldl (recordUse (boundNames imports)) .empty).find? path = some found ∧
      Text.sort found = symbols := by
  simp only [usages, usagesOf, OrderedMap.mapValues, List.mem_map, Prod.mk.injEq, Prod.exists,
    OrderedMap.mem_entries_iff]
  constructor
  · rintro ⟨_, found, hfind, rfl, hsort⟩
    exact ⟨found, hfind, hsort⟩
  · rintro ⟨found, hfind, hsort⟩
    exact ⟨path, found, hfind, rfl, hsort⟩

/-- **The usages of a file are its selections from names of imports.** A path is given with a symbol just where the
tree contains, at any depth, a selection of the symbol from a name that calls the path, so that a path from which
nothing is used is not there. Each path stands there once, also if several names call it, and its symbols are sorted
and different. -/
theorem usages_are_selections (tree : SyntaxTree) (imports : List ImportSpec) :
    (∀ path symbol, (∃ symbols, (path, symbols) ∈ usages tree imports ∧ symbol ∈ symbols) ↔
        Uses tree imports path symbol) ∧
      (∀ path, path ∈ (usages tree imports).map (·.1) ↔ ∃ symbol, Uses tree imports path symbol) ∧
      ((usages tree imports).map (·.1)).Nodup ∧
      ∀ entry ∈ usages tree imports, entry.2 ≠ [] ∧ entry.2.Pairwise (· < ·) := by
  have hrecords := records_usagesOf tree imports
  have hsymbols : ∀ path symbol, (∃ symbols, (path, symbols) ∈ usages tree imports ∧ symbol ∈ symbols) ↔
      Uses tree imports path symbol := fun path symbol => by
    simp only [← hrecords.mem_iff, mem_usages]
    constructor
    · rintro ⟨_, ⟨found, hfind, rfl⟩, hmem⟩
      exact ⟨found, hfind, List.mem_mergeSort.mp hmem⟩
    · rintro ⟨found, hfind, hmem⟩
      exact ⟨_, ⟨found, hfind, rfl⟩, List.mem_mergeSort.mpr hmem⟩
  have hentries : ∀ entry ∈ usages tree imports, entry.2 ≠ [] ∧ entry.2.Pairwise (· < ·) := by
    rintro ⟨path, _⟩ hentry
    obtain ⟨found, hfind, rfl⟩ := mem_usages.mp hentry
    obtain ⟨symbol, hsymbol⟩ := List.exists_mem_of_ne_nil found (hrecords.ne_nil path found hfind)
    exact ⟨List.ne_nil_of_mem (List.mem_mergeSort.mpr hsymbol), Text.pairwise_sort (hrecords.nodup path found hfind)⟩
  refine ⟨hsymbols, fun path => ?_, OrderedMap.nodup_keys _, hentries⟩
  simp only [← hsymbols, List.mem_map, Prod.exists, exists_and_right, exists_eq_right]
  constructor
  · rintro ⟨symbols, hentry⟩
    obtain ⟨symbol, hsymbol⟩ := List.exists_mem_of_ne_nil symbols (hentries _ hentry).1
    exact ⟨symbol, symbols, hentry, hsymbol⟩
  · rintro ⟨-, symbols, hentry, -⟩
    exact ⟨symbols, hentry⟩

end LayerLint.Source
