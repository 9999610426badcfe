import LayerLint.Proofs.Result
import LayerLint.Proofs.Source.Lexeme
import LayerLint.Proofs.Source.Name

/-!
# What the header of a file declares

The clauses of a file are the runs of tokens between the terminators that stand in no bracket (`Splits`); each list of
tokens has one such division, the one that `clauses` finds (`splits_iff`). `IsImport` is the grammar of an import
declaration: one path or several in parentheses, each with a name, an underscore or a dot in front of it if need be.

- A clause of the grammar is read as it says (`clause_package`, `clause_import`), and another one that begins with the
  word is malformed (`clause_malformed`).
- Where the header is well-formed it is found as it stands, whatever declarations follow it (`header_of_wellFormed`).
- Without a package clause (`header_missing`) or with a malformed clause before the first other declaration
  (`header_malformed`) there is none.
-/

namespace LayerLint.Source

/-! ## Clauses -/

/-- The depth of brackets behind tokens. -/
def depthBehind (depth : Nat) (kinds : List TokenKind) : Nat := kinds.foldl depthAfter depth

/-- No terminator stands outside of brackets. -/
def IsUnbroken : Nat → List TokenKind → Prop
  | _, [] => True
  | depth, kind :: rest => (kind = .terminator → depth ≠ 0) ∧ IsUnbroken (depthAfter depth kind) rest

/-- The clauses of a file: what stands between terminators outside of brackets. -/
inductive Splits : List TokenKind → List (List TokenKind) → Prop
  | nil : Splits [] []
  | skip {rest : List TokenKind} {runs : List (List TokenKind)} (h : Splits rest runs) :
      Splits (.terminator :: rest) runs
  | last {run : List TokenKind} (hne : run ≠ []) (hrun : IsUnbroken 0 run) : Splits run [run]
  | cons {run rest : List TokenKind} {runs : List (List TokenKind)} (hne : run ≠ []) (hrun : IsUnbroken 0 run)
      (hclosed : depthBehind 0 run = 0) (h : Splits rest runs) : Splits (run ++ .terminator :: rest) (run :: runs)

/-! ## Grammar of the header -/

/-- The token is a string literal with this text between its quotes. -/
inductive Quotes : TokenKind → String → Prop
  | interpreted (path : String) : Quotes (.string (String.ofList ('"' :: (path.toList ++ ['"'])))) path
  | raw (path : String) : Quotes (.string (String.ofList ('\x60' :: (path.toList ++ ['\x60'])))) path

/-- An import: a path, with a name, an underscore or a dot in front of it. -/
inductive IsSpec : List TokenKind → ImportSpec → Prop
  | plain {quoted : TokenKind} {path : String} (h : Quotes quoted path) : IsSpec [quoted] ⟨path, none⟩
  | named {quoted : TokenKind} {path name : String} (hname : isIdentifier name) (h : Quotes quoted path) :
      IsSpec [.word name, quoted] ⟨path, some name⟩
  | dot {quoted : TokenKind} {path : String} (h : Quotes quoted path) : IsSpec [.mark ".", quoted] ⟨path, some "."⟩

/-- Imports with terminators between them, and perhaps one behind the last. -/
inductive IsGroup : List TokenKind → List ImportSpec → Prop
  | nil : IsGroup [] []
  | last {run : List TokenKind} {spec : ImportSpec} (h : IsSpec run spec) : IsGroup run [spec]
  | cons {run rest : List TokenKind} {spec : ImportSpec} {specs : List ImportSpec} (h : IsSpec run spec)
      (hrest : IsGroup rest specs) : IsGroup (run ++ .terminator :: rest) (spec :: specs)

/-- A declaration of imports. -/
inductive IsImport : List TokenKind → List ImportSpec → Prop
  | single {run : List TokenKind} {spec : ImportSpec} (h : IsSpec run spec) : IsImport (.word "import" :: run) [spec]
  | group {inside : List TokenKind} {specs : List ImportSpec} (h : IsGroup inside specs) :
      IsImport (.word "import" :: .mark "(" :: (inside ++ [.mark ")"])) specs

/-- A package clause. -/
inductive IsPackage : List TokenKind → String → Prop
  | intro {name : String} (h : isIdentifier name) : IsPackage [.word "package", .word name] name

/-- The run begins as a package clause does, with the word and a name. -/
def NamesPackage (run : List TokenKind) : Prop :=
  ∃ name rest, isIdentifier name ∧ run = .word "package" :: .word name :: rest

/-- The run is a package clause or a declaration of imports, by its first word. -/
def IsHeaderClause (run : List TokenKind) : Prop :=
  ∃ word ∈ ["package", "import"], ∃ rest, run = .word word :: rest

/-- The clause is well-formed. -/
def IsWellFormed (run : List TokenKind) : Prop := (∃ name, IsPackage run name) ∨ ∃ specs, IsImport run specs

/-- The run is another declaration, by its first word. -/
def IsDeclaration (run : List TokenKind) : Prop :=
  ∃ word ∈ ["const", "func", "type", "var"], ∃ rest, run = .word word :: rest

/-! ## Division into clauses -/

/-- The tokens up to the first terminator outside of brackets. -/
theorem exists_run (depth : Nat) (kinds : List TokenKind) :
    IsUnbroken depth kinds ∨
      ∃ run rest, kinds = run ++ .terminator :: rest ∧ IsUnbroken depth run ∧ depthBehind depth run = 0 := by
  induction kinds generalizing depth with
  | nil => exact .inl trivial
  | cons kind kinds ih =>
    by_cases hend : kind = .terminator ∧ depth = 0
    · obtain ⟨rfl, rfl⟩ := hend
      exact .inr ⟨[], kinds, rfl, trivial, rfl⟩
    · have hkind : kind = .terminator → depth ≠ 0 := fun hk hd => hend ⟨hk, hd⟩
      rcases ih (depthAfter depth kind) with h | ⟨run, rest, rfl, hrun, hdepth⟩
      · exact .inl ⟨hkind, h⟩
      · exact .inr ⟨kind :: run, rest, rfl, ⟨hkind, hrun⟩, hdepth⟩

/-- **Every list of tokens is divided into clauses.** -/
theorem exists_splits (kinds : List TokenKind) : ∃ runs, Splits kinds runs := by
  induction hn : kinds.length using Nat.strongRecOn generalizing kinds with
  | ind n ih =>
    rcases exists_run 0 kinds with h | ⟨run, rest, rfl, hrun, hdepth⟩
    · cases kinds with
      | nil => exact ⟨_, .nil⟩
      | cons kind kinds => exact ⟨_, .last (List.cons_ne_nil _ _) h⟩
    · have hlength : rest.length < n := by
        rw [← hn, List.length_append, List.length_cons]
        omega
      obtain ⟨runs, hruns⟩ := ih rest.length hlength rest rfl
      cases run with
      | nil => exact ⟨_, .skip hruns⟩
      | cons kind run => exact ⟨_, .cons (List.cons_ne_nil _ _) hrun hdepth hruns⟩

/-- Tokens without a terminator outside of brackets belong to one clause. -/
theorem clauses_append {depth : Nat} {a : List Token} (h : IsUnbroken depth (a.map (·.kind))) (run b : List Token) :
    clauses depth run (a ++ b) = clauses (depthBehind depth (a.map (·.kind))) (run ++ a) b := by
  induction a generalizing depth run with
  | nil => rw [List.append_nil]; rfl
  | cons token a ih =>
    have hgo : ¬ (token.kind = .terminator ∧ depth = 0) := fun hand => h.1 hand.1 hand.2
    rw [List.cons_append, clauses, if_neg hgo, ih h.2, List.append_assoc]
    rfl

/-- **`clauses` finds the clauses.** -/
theorem map_clauses {kinds : List TokenKind} {runs : List (List TokenKind)} (h : Splits kinds runs)
    {tokens : List Token} (htokens : tokens.map (·.kind) = kinds) :
    (clauses 0 [] tokens).map (·.map (·.kind)) = runs := by
  induction h generalizing tokens with
  | nil =>
    obtain rfl := List.map_eq_nil_iff.mp htokens
    rfl
  | skip _ ih =>
    obtain ⟨token, rest, rfl, htoken, hrest⟩ := List.map_eq_cons_iff.mp htokens
    rw [clauses, if_pos ⟨htoken, rfl⟩]
    exact ih hrest
  | last hne hrun =>
    subst htokens
    have hempty : tokens.isEmpty = false := by simpa using hne
    have hall := clauses_append hrun [] []
    rw [List.append_nil, List.nil_append] at hall
    rw [hall, clauses, hempty]
    rfl
  | cons hne hrun hclosed _ ih =>
    obtain ⟨run, rest, rfl, rfl, hrest⟩ := List.map_eq_append_iff.mp htokens
    obtain ⟨token, rest, rfl, htoken, hrest⟩ := List.map_eq_cons_iff.mp hrest
    have hempty : run.isEmpty = false := by simpa using hne
    rw [clauses_append hrun, List.nil_append, hclosed, clauses, if_pos ⟨htoken, rfl⟩, hempty]
    exact congrArg (_ :: ·) (ih hrest)

/-- **There is one division into clauses.** -/
theorem splits_iff {tokens : List Token} {runs : List (List TokenKind)} :
    Splits (tokens.map (·.kind)) runs ↔ (clauses 0 [] tokens).map (·.map (·.kind)) = runs := by
  constructor
  · exact fun h => map_clauses h rfl
  · rintro rfl
    obtain ⟨runs, h⟩ := exists_splits (tokens.map (·.kind))
    rwa [map_clauses h rfl]

/-! ## Imports -/

/-- The string literals among the tokens have their quotes, as all that are read have them. -/
def AreQuoted (kinds : List TokenKind) : Prop := ∀ raw, .string raw ∈ kinds → ∃ path, Quotes (.string raw) path

theorem areQuoted_of_reads {ends : Bool} {s : List Char} {kinds : List TokenKind} (h : Reads ends s kinds) :
    AreQuoted kinds := by
  intro raw hraw
  induction h with
  | @nil ends => cases ends <;> simp [breakAfter] at hraw
  | @lineBreak ends _ _ _ ih => exact ih (by cases ends <;> simpa [breakAfter] using hraw)
  | space _ _ ih | comment _ _ ih => exact ih hraw
  | token hlexeme _ ih =>
    rcases List.mem_cons.mp hraw with hkind | hraw
    · cases hlexeme with
      | @string inside _ h =>
        rw [hkind]
        exact ⟨String.ofList inside, by simpa using Quotes.interpreted (String.ofList inside)⟩
      | @rawString inside _ h =>
        rw [hkind]
        exact ⟨String.ofList inside, by simpa using Quotes.raw (String.ofList inside)⟩
      | _ => cases hkind
    · exact ih hraw

theorem unquote_of_quotes {raw path : String} (h : Quotes (.string raw) path) : unquote raw = path := by
  cases h <;> simp [unquote]

theorem Quotes.exists_raw {kind : TokenKind} {path : String} (h : Quotes kind path) :
    ∃ raw, kind = .string raw ∧ unquote raw = path := by
  cases h
  · exact ⟨_, rfl, unquote_of_quotes (.interpreted path)⟩
  · exact ⟨_, rfl, unquote_of_quotes (.raw path)⟩

/-- One import is read as it stands. -/
theorem importSpec?_iff {kinds : List TokenKind} {spec : ImportSpec} (hquoted : AreQuoted kinds) :
    importSpec? kinds = some spec ↔ IsSpec kinds spec := by
  constructor
  · intro h
    unfold importSpec? at h
    split at h
    · rename_i raw
      obtain ⟨path, hpath⟩ := hquoted raw (by simp)
      rw [unquote_of_quotes hpath] at h
      cases h
      exact .plain hpath
    · rename_i name raw
      obtain ⟨path, hpath⟩ := hquoted raw (by simp)
      rw [unquote_of_quotes hpath] at h
      split at h
      · rename_i hname
        cases h
        exact .named hname hpath
      · cases h
    · rename_i name raw
      obtain ⟨path, hpath⟩ := hquoted raw (by simp)
      rw [unquote_of_quotes hpath] at h
      split at h
      · rename_i hname
        obtain rfl : name = "." := by simpa using hname
        cases h
        exact .dot hpath
      · cases h
    · cases h
  · intro h
    cases h with
    | plain h =>
      obtain ⟨raw, rfl, rfl⟩ := h.exists_raw
      rfl
    | named hname h =>
      obtain ⟨raw, rfl, rfl⟩ := h.exists_raw
      exact if_pos hname
    | dot h =>
      obtain ⟨raw, rfl, rfl⟩ := h.exists_raw
      rfl

theorem AreQuoted.mono {a b : List TokenKind} (h : AreQuoted b) (hsub : ∀ kind ∈ a, kind ∈ b) : AreQuoted a :=
  fun raw hraw => h raw (hsub _ hraw)

theorem IsSpec.ne_terminator {run : List TokenKind} {spec : ImportSpec} (h : IsSpec run spec) :
    run ≠ [] ∧ ∀ kind ∈ run, kind ≠ .terminator := by
  cases h with
  | plain h | named _ h | dot h =>
    obtain ⟨raw, rfl, -⟩ := h.exists_raw
    simp

theorem IsSpec.ne_group {run : List TokenKind} {spec : ImportSpec} (h : IsSpec run spec) (rest : List TokenKind) :
    run ≠ .mark "(" :: rest := by
  cases h with
  | plain h =>
    obtain ⟨raw, rfl, -⟩ := h.exists_raw
    simp
  | named | dot => simp

theorem specRuns_append {a : List TokenKind} (h : ∀ kind ∈ a, kind ≠ .terminator) (run b : List TokenKind) :
    specRuns run (a ++ b) = specRuns (run ++ a) b := by
  induction a generalizing run with
  | nil => rw [List.append_nil]; rfl
  | cons kind a ih =>
    rw [List.cons_append, specRuns, if_neg (h kind (.head _)), ih fun kind hkind => h kind (.tail _ hkind),
      List.append_assoc]
    rfl

theorem isGroup_of_mapM {run kinds : List TokenKind} {specs : List ImportSpec} (hquoted : AreQuoted (run ++ kinds))
    (h : (specRuns run kinds).mapM importSpec? = some specs) : IsGroup (run ++ kinds) specs := by
  induction kinds generalizing run specs with
  | nil =>
    rw [List.append_nil] at hquoted ⊢
    rw [specRuns] at h
    split at h
    · rename_i hempty
      obtain rfl := List.isEmpty_iff.mp hempty
      cases h
      exact .nil
    · cases hspec : importSpec? run with
      | none => simp [hspec] at h
      | some spec =>
        obtain rfl : [spec] = specs := by simpa [hspec] using h
        exact .last ((importSpec?_iff hquoted).mp hspec)
  | cons kind rest ih =>
    rw [specRuns] at h
    split at h
    · rename_i hkind
      subst hkind
      cases hspec : importSpec? run with
      | none => simp [hspec] at h
      | some spec =>
        cases hmore : (specRuns [] rest).mapM importSpec? with
        | none => simp [hspec, hmore] at h
        | some more =>
          obtain rfl : spec :: more = specs := by simpa [hspec, hmore] using h
          have hrun : IsSpec run spec := (importSpec?_iff (hquoted.mono fun _ hk => List.mem_append_left _ hk)).mp hspec
          exact .cons hrun (ih (hquoted.mono fun _ hk => List.mem_append_right _ (.tail _ hk)) hmore)
    · have hsplit : run ++ kind :: rest = run ++ [kind] ++ rest := by simp
      rw [hsplit] at hquoted ⊢
      exact ih hquoted h

/-- Imports in parentheses are read as they stand. -/
theorem mapM_importSpec?_iff {kinds : List TokenKind} {specs : List ImportSpec} (hquoted : AreQuoted kinds) :
    (specRuns [] kinds).mapM importSpec? = some specs ↔ IsGroup kinds specs := by
  constructor
  · exact isGroup_of_mapM hquoted
  · intro h
    induction h with
    | nil => rfl
    | @last run spec h =>
      obtain ⟨hne, hrun⟩ := h.ne_terminator
      have hall := specRuns_append hrun [] []
      rw [List.append_nil, List.nil_append, specRuns, if_neg (by simpa using hne)] at hall
      rw [hall]
      simp [(importSpec?_iff hquoted).mpr h]
    | @cons run rest spec specs h _ ih =>
      obtain ⟨-, hrun⟩ := h.ne_terminator
      rw [specRuns_append hrun, List.nil_append, specRuns, if_pos rfl]
      have hspec := (importSpec?_iff (hquoted.mono fun _ hk => List.mem_append_left _ hk)).mpr h
      simp [hspec, ih (hquoted.mono fun _ hk => List.mem_append_right _ (.tail _ hk))]

theorem importSpecs?_group {inside : List TokenKind} :
    importSpecs? (.mark "(" :: (inside ++ [.mark ")"])) = (specRuns [] inside).mapM importSpec? := by
  simp [importSpecs?]

/-- **What stands behind the word `import` is read as the grammar says.** -/
theorem importSpecs?_iff {kinds : List TokenKind} {specs : List ImportSpec} (hquoted : AreQuoted kinds) :
    importSpecs? kinds = some specs ↔ IsImport (.word "import" :: kinds) specs := by
  constructor
  · intro h
    unfold importSpecs? at h
    split at h
    · rename_i rest
      split at h
      · rename_i back hback
        have hrest : rest = back.reverse ++ [.mark ")"] := by
          rw [← List.reverse_reverse rest, hback, List.reverse_cons]
        subst hrest
        exact .group ((mapM_importSpec?_iff (hquoted.mono fun _ hk => by simp [hk])).mp h)
      · cases h
    · obtain ⟨spec, hspec, rfl⟩ := Option.map_eq_some_iff.mp h
      exact .single ((importSpec?_iff hquoted).mp hspec)
  · intro h
    cases h with
    | single h =>
      have hspec := (importSpec?_iff hquoted).mpr h
      rw [importSpecs?.eq_2 _ h.ne_group, hspec]
      rfl
    | group h =>
      rw [importSpecs?_group]
      exact (mapM_importSpec?_iff (hquoted.mono fun _ hk => by simp [hk])).mpr h

/-! ## What a clause declares -/

section Clause

variable {run : List Token}

theorem clause_package {name : String} (h : IsPackage (run.map (·.kind)) name) : clause run = .package name := by
  generalize hkinds : run.map (·.kind) = kinds at h
  cases h with
  | intro hname =>
    obtain ⟨first, rest, rfl, hfirst, hrest⟩ := List.map_eq_cons_iff.mp hkinds
    simp only [clause, hfirst, hrest, if_pos hname]

theorem clause_word_package (line : Nat) (rest : List Token) : clause (⟨.word "package", line⟩ :: rest) =
    match (rest.map (·.kind) : List TokenKind) with
    | [.word name] => if isIdentifier name then .package name else .malformed none line
    | .word name :: _ => .malformed (if isIdentifier name then some name else none) line
    | _ => .malformed none line := by
  simp only [clause]
  generalize rest.map (·.kind) = kinds
  cases kinds with
  | nil => rfl
  | cons kind kinds => cases kind <;> cases kinds <;> rfl

theorem clause_word_import (line : Nat) (rest : List Token) : clause (⟨.word "import", line⟩ :: rest) =
    match importSpecs? (rest.map (·.kind)) with
    | some specs => .imports specs
    | none => .malformed none line := rfl

theorem clause_import {specs : List ImportSpec} (hquoted : AreQuoted (run.map (·.kind)))
    (h : IsImport (run.map (·.kind)) specs) : clause run = .imports specs := by
  obtain ⟨rest, hkinds⟩ : ∃ rest, run.map (·.kind) = .word "import" :: rest := by
    generalize run.map (·.kind) = kinds at h
    cases h <;> exact ⟨_, rfl⟩
  obtain ⟨⟨_, line⟩, more, rfl, rfl, rfl⟩ := List.map_eq_cons_iff.mp hkinds
  have hspecs := (importSpecs?_iff (hquoted.mono fun _ hk => .tail _ hk)).mpr h
  rw [clause_word_import, hspecs]

theorem clause_declaration (h : IsDeclaration (run.map (·.kind))) : clause run = .other := by
  obtain ⟨word, hword, rest, hkinds⟩ := h
  obtain ⟨⟨_, line⟩, more, rfl, rfl, rfl⟩ := List.map_eq_cons_iff.mp hkinds
  have hkeyword : isIdentifier word = false := by
    clear hkinds
    revert word
    decide
  have hpair : ∀ next, isOperandPair (.word word) next = false := by
    intro next
    cases next <;> simp [isOperandPair, hkeyword]
  simp only [List.mem_cons, List.not_mem_nil, or_false] at hword
  rcases hword with rfl | rfl | rfl | rfl <;> cases more <;> simp [clause, beginsNothing, hpair]

/-- Only a run that begins as a package clause names a package. -/
theorem namesPackage_of_clause {name : String} (h : (clause run).package? = some name) :
    NamesPackage (run.map (·.kind)) := by
  cases run with
  | nil => cases h
  | cons first rest =>
    by_cases hword : first.kind = .word "package"
    · obtain ⟨_, line⟩ := first
      subst hword
      rw [clause_word_package] at h
      split at h
      · rename_i found hrest
        split at h
        · rename_i hname
          exact ⟨found, [], hname, by rw [List.map_cons, hrest]⟩
        · cases h
      · rename_i found more _ hrest
        by_cases hname : isIdentifier found
        · exact ⟨found, more, hname, by rw [List.map_cons, hrest]⟩
        · rw [if_neg hname] at h
          cases h
      · cases h
    · unfold clause at h
      dsimp only at h
      split at h
      · exact absurd ‹first.kind = .word "package"› hword
      · exact absurd ‹first.kind = .word "package"› hword
      · exact absurd ‹first.kind = .word "package"› hword
      · split at h <;> cases h
      · split at h <;> cases h
      · split at h <;> cases h

/-- The first word of a clause of the header. -/
theorem headerClause_cases (h : IsHeaderClause (run.map (·.kind))) :
    (∃ line more, run = ⟨.word "package", line⟩ :: more) ∨ ∃ line more, run = ⟨.word "import", line⟩ :: more := by
  obtain ⟨word, hword, rest, hkinds⟩ := h
  obtain ⟨⟨_, line⟩, more, rfl, rfl, rfl⟩ := List.map_eq_cons_iff.mp hkinds
  simp only [List.mem_cons, List.not_mem_nil, or_false] at hword
  rcases hword with rfl | rfl
  · exact .inl ⟨line, more, rfl⟩
  · exact .inr ⟨line, more, rfl⟩

/-- A package clause or a declaration of imports is malformed if it does not keep to the grammar. -/
theorem clause_malformed (hquoted : AreQuoted (run.map (·.kind))) (h : IsHeaderClause (run.map (·.kind)))
    (hill : ¬ IsWellFormed (run.map (·.kind))) : ∃ package line, clause run = .malformed package line := by
  obtain ⟨line, more, rfl⟩ | ⟨line, more, rfl⟩ := headerClause_cases h
  · rw [clause_word_package]
    split
    · rename_i name hrest
      rw [if_neg]
      · exact ⟨_, _, rfl⟩
      · intro hname
        apply hill
        rw [List.map_cons, hrest]
        exact .inl ⟨name, .intro hname⟩
    · exact ⟨_, _, rfl⟩
    · exact ⟨_, _, rfl⟩
  · rw [clause_word_import]
    cases hspecs : importSpecs? (more.map (·.kind)) with
    | none => exact ⟨_, _, rfl⟩
    | some specs => exact absurd (.inr ⟨specs, (importSpecs?_iff (hquoted.mono fun _ hk => .tail _ hk)).mp hspecs⟩) hill

theorem clause_ne_other (h : IsHeaderClause (run.map (·.kind))) : clause run ≠ .other := by
  obtain ⟨line, more, rfl⟩ | ⟨line, more, rfl⟩ := headerClause_cases h
  · rw [clause_word_package]
    split
    · split <;> simp
    · simp
    · simp
  · rw [clause_word_import]
    split <;> simp

end Clause

/-! ## The header -/

theorem mem_of_splits {kinds : List TokenKind} {runs : List (List TokenKind)} (h : Splits kinds runs) :
    ∀ run ∈ runs, ∀ kind ∈ run, kind ∈ kinds := by
  induction h with
  | nil => simp
  | skip _ ih => exact fun run hrun kind hkind => .tail _ (ih run hrun kind hkind)
  | last => simp
  | cons _ _ _ _ ih =>
    intro run hrun kind hkind
    rcases List.mem_cons.mp hrun with rfl | hrun
    · exact List.mem_append_left _ hkind
    · exact List.mem_append_right _ (.tail _ (ih run hrun kind hkind))

/-- Declarations of imports are read in their order. -/
theorem map_clause_imports {runs : List (List Token)} {groups : List (List ImportSpec)}
    (hquoted : ∀ run ∈ runs, AreQuoted (run.map (·.kind)))
    (h : List.Forall₂ IsImport (runs.map (·.map (·.kind))) groups) : runs.map clause = groups.map .imports := by
  induction runs generalizing groups with
  | nil =>
    cases h
    rfl
  | cons run runs ih =>
    cases h with
    | cons himport hrest =>
      rw [List.map_cons, clause_import (hquoted run (.head _)) himport,
        ih (fun run hrun => hquoted run (.tail _ hrun)) hrest]
      rfl

/-- No clause before the first other declaration is malformed. -/
theorem firstMalformed?_eq_none (groups : List (List ImportSpec)) (count : Nat) :
    firstMalformed? (groups.map .imports ++ List.replicate count .other) = none := by
  induction groups with
  | nil => cases count <;> rfl
  | cons group groups ih => exact ih

/-- A malformed clause is found before the first other declaration. -/
theorem exists_firstMalformed? {before after : List Clause} {package : Option String} {line : Nat}
    (h : ∀ part ∈ before, part ≠ .other) :
    ∃ first, firstMalformed? (before ++ .malformed package line :: after) = some first := by
  induction before with
  | nil => exact ⟨line, rfl⟩
  | cons part before ih =>
    obtain ⟨first, hfirst⟩ := ih fun part hpart => h part (.tail _ hpart)
    cases part with
    | package | imports => exact ⟨first, hfirst⟩
    | malformed _ line => exact ⟨line, rfl⟩
    | other => exact absurd rfl (h .other (.head _))

section Header

variable {tokens : List Token} {kinds : List TokenKind} {runs : List (List TokenKind)}

/-- **A header that keeps to the grammar is found as it stands.** -/
theorem header_of_wellFormed (htokens : tokens.map (·.kind) = kinds) (hsplits : Splits kinds runs)
    (hquoted : AreQuoted kinds) {clauseRun : List TokenKind} {importRuns declarations : List (List TokenKind)}
    {name : String} {groups : List (List ImportSpec)} (hruns : runs = clauseRun :: (importRuns ++ declarations))
    (hpackage : IsPackage clauseRun name) (himports : List.Forall₂ IsImport importRuns groups)
    (hdeclarations : ∀ run ∈ declarations, IsDeclaration run) : header tokens = .ok ⟨name, groups.flatten⟩ := by
  have hclauses := map_clauses hsplits htokens
  rw [hruns] at hclauses
  obtain ⟨first, rest, hparts, hfirst, hrest⟩ := List.map_eq_cons_iff.mp hclauses
  obtain ⟨imports, others, rfl, rfl, hothers⟩ := List.map_eq_append_iff.mp hrest
  have hquotedRun : ∀ run ∈ imports, AreQuoted (run.map (·.kind)) := fun run hrun =>
    hquoted.mono (mem_of_splits hsplits _ (by
      rw [hruns]
      exact .tail _ (List.mem_append_left _ (List.mem_map_of_mem hrun))))
  have hother : others.map clause = List.replicate others.length .other := by
    rw [List.map_eq_replicate_iff]
    intro run hrun
    exact clause_declaration (hdeclarations _ (by rw [← hothers]; exact List.mem_map_of_mem hrun))
  have hall : (clauses 0 [] tokens).map clause =
      .package name :: (groups.map .imports ++ List.replicate others.length .other) := by
    rw [hparts, List.map_cons, List.map_append, clause_package (hfirst ▸ hpackage),
      map_clause_imports hquotedRun himports, hother]
  have hname : ((clauses 0 [] tokens).map clause).findSome? (·.package?) = some name := by
    rw [hall]
    rfl
  have hsound : firstMalformed? ((clauses 0 [] tokens).map clause) = none := by
    rw [hall]
    exact firstMalformed?_eq_none groups others.length
  have hspecs : ((clauses 0 [] tokens).map clause).flatMap (·.specs) = groups.flatten := by
    have himported : (groups.map Clause.imports).flatMap (·.specs) = groups.flatten := by
      rw [List.flatMap_map, List.flatMap_def]
      exact congrArg List.flatten (List.map_id groups)
    have hnothing : (List.replicate others.length Clause.other).flatMap (·.specs) = [] := by
      simp [List.flatMap_eq_nil_iff, Clause.specs]
    rw [hall, List.flatMap_cons, List.flatMap_append, himported, hnothing, List.append_nil]
    rfl
  simp only [header, hname, hsound, hspecs]

/-- **Without a package clause there is no header.** -/
theorem header_missing (htokens : tokens.map (·.kind) = kinds) (hsplits : Splits kinds runs)
    (h : ∀ run ∈ runs, ¬ NamesPackage run) : header tokens = .error .missingPackage := by
  have hnone : ((clauses 0 [] tokens).map clause).findSome? (·.package?) = none := by
    rw [List.findSome?_eq_none_iff]
    intro part hpart
    obtain ⟨run, hrun, rfl⟩ := List.mem_map.mp hpart
    cases hname : (clause run).package? with
    | none => rfl
    | some name =>
      have hmem : run.map (·.kind) ∈ runs := by
        rw [← map_clauses hsplits htokens]
        exact List.mem_map_of_mem hrun
      exact absurd (namesPackage_of_clause hname) (h _ hmem)
  simp only [header, hnone]

/-- **With a malformed clause before the first other declaration there is no header.** -/
theorem header_malformed (htokens : tokens.map (·.kind) = kinds) (hsplits : Splits kinds runs)
    (hquoted : AreQuoted kinds) {before after : List (List TokenKind)} {run : List TokenKind}
    (hruns : runs = before ++ run :: after) (hbefore : ∀ clause ∈ before, IsHeaderClause clause)
    (hclause : IsHeaderClause run) (hill : ¬ IsWellFormed run) : ∃ cause, header tokens = .error cause := by
  have hclauses := map_clauses hsplits htokens
  rw [hruns] at hclauses
  obtain ⟨front, rest, hparts, hfront, hrest⟩ := List.map_eq_append_iff.mp hclauses
  obtain ⟨bad, others, rfl, rfl, -⟩ := List.map_eq_cons_iff.mp hrest
  have hquotedRun : AreQuoted (bad.map (·.kind)) := hquoted.mono (mem_of_splits hsplits _ (by simp [hruns]))
  obtain ⟨package, line, hbad⟩ := clause_malformed hquotedRun hclause hill
  have hnone : ∀ part ∈ front.map clause, part ≠ .other := by
    intro part hpart
    obtain ⟨run, hrun, rfl⟩ := List.mem_map.mp hpart
    exact clause_ne_other (hbefore _ (by rw [← hfront]; exact List.mem_map_of_mem hrun))
  obtain ⟨first, hfirst⟩ := exists_firstMalformed? hnone
  have hall : firstMalformed? ((clauses 0 [] tokens).map clause) = some first := by
    rw [hparts, List.map_append, List.map_cons, hbad]
    exact hfirst
  simp only [header, hall]
  split <;> exact ⟨_, rfl⟩

end Header

end LayerLint.Source
