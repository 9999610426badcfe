import LayerLint.ModulePath
import LayerLint.Proofs.Disk.Write
import LayerLint.Proofs.Text.Lines
import LayerLint.Proofs.Text.Search
import LayerLint.Yaml.ScalarText

/-!
# Which directives are understood

The format of `go.mod` leaves a directive much freedom: spaces and tabs stand behind the word `module`, the path is
bare or a string, raw or with escapes (`Spells`), and a comment may follow. A `Directive` is a line of this form. The
reader knows one of these forms only, the plain one: a space behind the word, the path bare or between quotes, and no
comment (`Directive.IsPlain`).

- A line that is no module line declares nothing (`isModuleLine_of_ofLine?`).
- What a line with a space behind the word declares is the rest of the line without white space and quotes at its
  ends (`ofLine?_spaced`).
- A comment, a backquote and a backslash stay in what is read (`exists_mark_of_not_plain`), and no path holds them
  (`not_infix_of_isPath`). So another form than the plain one gives another path, or none.
-/

namespace LayerLint.ModulePath

/-! ## The format -/

/-- The character can stand in the path of a module. -/
def isPathChar (c : Char) : Bool := c.isAlphanum || c ∈ ['-', '.', '_', '~', '+', '/']

/-- The characters are the path of a module: elements of letters, digits and a few marks, none of them empty. -/
structure IsPath (path : List Char) : Prop where
  chars : ∀ c ∈ path, isPathChar c
  elements : [] ∉ Text.splitAt '/' path

/-- The bases in which a string writes the number of a character, each with the letter in front of the digits and how
many they are. -/
def bases : List (Nat × List Char × Nat) := [(8, [], 3), (16, ['x'], 2), (16, ['u'], 4), (16, ['U'], 8)]

/-- What stands behind a backslash gives the number of the character. -/
def Encodes (code : List Char) (c : Char) : Prop :=
  ∃ base lead width digits, (base, lead, width) ∈ bases ∧ code = lead ++ digits ∧ digits.length = width ∧
    (∀ digit ∈ digits, Yaml.digitValue digit < base) ∧ Yaml.digitsValue base digits = c.toNat

/-- The inside of a string stands for a text. -/
inductive Escapes : List Char → List Char → Prop
  | nil : Escapes [] []
  | plain {c : Char} {inside text : List Char} (hquote : c ≠ '"') (hbackslash : c ≠ '\\')
      (h : Escapes inside text) : Escapes (c :: inside) (c :: text)
  | coded {c : Char} {code inside text : List Char} (hcode : Encodes code c) (h : Escapes inside text) :
      Escapes ('\\' :: (code ++ inside)) (c :: text)

/-- The ways to write a path: bare, as a raw string and as a string with escapes. -/
inductive Spells : List Char → List Char → Prop
  | bare (path : List Char) : Spells path path
  | raw (path : List Char) : Spells ('\x60' :: (path ++ ['\x60'])) path
  | quoted {inside path : List Char} (h : Escapes inside path) : Spells ('"' :: (inside ++ ['"'])) path

/-- Spaces and tabs. -/
def Spaces : Type := { s : List Char // ∀ c ∈ s, c = ' ' ∨ c = '\t' }

/-- A directive on one line. -/
structure Directive where
  indent : Spaces
  gap : Spaces
  gap_ne_nil : gap.1 ≠ []
  path : List Char
  isPath : IsPath path
  /-- The path as it is written. -/
  written : List Char
  spells : Spells written path
  /-- What stands behind the path. -/
  trailing : Spaces
  /-- The text of the comment at the end, if there is one. -/
  comment : Option (List Char)

namespace Directive

/-- What stands behind the word `module` and the blanks that follow it. -/
def operand (d : Directive) : List Char :=
  d.written ++ d.trailing.1 ++ d.comment.elim [] (['/', '/'] ++ ·)

/-- The text of the directive. -/
def line (d : Directive) : List Char := d.indent.1 ++ "module".toList ++ d.gap.1 ++ d.operand

/-- The plain form: a space behind the word, the path bare or between quotes, no comment. -/
structure IsPlain (d : Directive) : Prop where
  gap : d.gap.1.head? = some ' '
  comment : d.comment = none
  written : d.written = d.path ∨ d.written = '"' :: (d.path ++ ['"'])

end Directive

/-- The line begins with the word `module`, and something follows on it. -/
def IsModuleLine (line : List Char) : Prop :=
  ∃ indent gap rest, (∀ c ∈ indent, Text.isBlank c) ∧ (gap = ' ' ∨ gap = '\t') ∧
    (∃ c ∈ rest, Text.isBlank c = false) ∧ line = indent ++ "module".toList ++ gap :: rest

/-! ## What a line declares -/

/-- A line declares what stands behind the word, without white space and quotes at its ends. -/
theorem ofLine?_of_trim {line rest : List Char} (h : Text.trim line = directive.toList ++ rest) :
    ofLine? line =
      let path := Text.trimChars (· == '"') (Text.trim rest)
      if path.isEmpty then none else some (String.ofList path) := by
  have hlead : Text.startsWith (String.ofList (Text.trim line)) directive = true := by
    rw [Text.startsWith_iff, String.toList_ofList, h]
    exact List.prefix_append _ _
  have hrest : Text.drop (String.ofList (Text.trim line)) directive.length = String.ofList rest := by
    rw [Text.drop, String.toList_ofList, h, List.drop_left' String.length_toList]
  simp only [ofLine?]
  rw [if_pos hlead, hrest, String.toList_ofList]

/-- A line without the word and a space behind it declares nothing. -/
theorem ofLine?_eq_none {line : List Char} (h : ¬ directive.toList <+: Text.trim line) : ofLine? line = none := by
  simp only [ofLine?]
  rw [if_neg]
  rwa [Text.startsWith_iff, String.toList_ofList]

theorem exists_not_blank_of_trim {s : List Char} (h : Text.trim s ≠ []) : ∃ c ∈ s, Text.isBlank c = false := by
  by_contra hall
  have hdrop : s.dropWhile Text.isBlank = [] := List.dropWhile_eq_nil_iff.mpr (by simpa using hall)
  exact h (by rw [Text.trim, Text.trimChars, hdrop]; rfl)

theorem directive_toList : directive.toList = "module".toList ++ [' '] := by decide

/-- Only module lines declare a path. -/
theorem isModuleLine_of_ofLine? {line : List Char} {path : String} (h : ofLine? line = some path) :
    IsModuleLine line := by
  by_cases hlead : directive.toList <+: Text.trim line
  · obtain ⟨rest, hrest⟩ := hlead
    have hne : Text.trim rest ≠ [] := by
      intro hnil
      rw [ofLine?_of_trim hrest.symm, hnil] at h
      cases h
    obtain ⟨c, hc, hblank⟩ := exists_not_blank_of_trim hne
    obtain ⟨lead, tail, hindent, hline⟩ := Text.exists_eq_append_trimChars Text.isBlank line
    refine ⟨lead, ' ', rest ++ tail, hindent, .inl rfl, ⟨c, List.mem_append_left _ hc, hblank⟩, ?_⟩
    rw [hline, ← Text.trim, ← hrest, directive_toList]
    simp
  · rw [ofLine?_eq_none hlead] at h
    cases h

/-- Blank lines and comments are no module lines. -/
theorem not_isModuleLine_of_head {line : List Char} (h : (line.dropWhile Text.isBlank).head? ≠ some 'm') :
    ¬ IsModuleLine line := by
  rintro ⟨indent, gap, rest, hindent, -, -, rfl⟩
  have hmodule : "module".toList = 'm' :: "odule".toList := by decide
  rw [hmodule, List.append_assoc, List.cons_append, Text.dropWhile_append_cons hindent (by decide)] at h
  exact h rfl

section Line

variable {indent gap rest : List Char} {first : Char}

theorem trim_cons (hfirst : Text.isBlank first = false) :
    Text.trim (first :: rest) = first :: rest.rdropWhile Text.isBlank :=
  Text.trimChars_append_cons (List.forall_mem_nil _) hfirst rest

/-- The white space around a line is dropped, up to the end of its last word. -/
theorem trim_line (hindent : ∀ c ∈ indent, Text.isBlank c) (hfirst : Text.isBlank first = false) :
    Text.trim (indent ++ "module".toList ++ gap ++ first :: rest) =
      "module".toList ++ gap ++ Text.trim (first :: rest) := by
  have hmodule : "module".toList = 'm' :: "odule".toList := by decide
  calc Text.trim (indent ++ "module".toList ++ gap ++ first :: rest)
      = Text.trim (indent ++ 'm' :: (("odule".toList ++ gap) ++ first :: rest)) := by rw [hmodule]; simp
    _ = 'm' :: (("odule".toList ++ gap) ++ first :: rest.rdropWhile Text.isBlank) := by
      rw [Text.trim, Text.trimChars_append_cons hindent (by decide), Text.rdropWhile_append_cons hfirst]
    _ = "module".toList ++ gap ++ Text.trim (first :: rest) := by rw [hmodule, trim_cons hfirst]; simp

/-- A line with a space behind the word declares the rest of it without white space and quotes at its ends. -/
theorem ofLine?_spaced (hindent : ∀ c ∈ indent, Text.isBlank c) (hgap : ∀ c ∈ gap, Text.isBlank c)
    (hfirst : Text.isBlank first = false) :
    ofLine? (indent ++ "module".toList ++ ' ' :: gap ++ first :: rest) =
      let path := Text.trimChars (· == '"') (Text.trim (first :: rest))
      if path.isEmpty then none else some (String.ofList path) := by
  have hread : Text.trim (gap ++ Text.trim (first :: rest)) = Text.trim (first :: rest) := by
    rw [trim_cons hfirst, Text.trim, Text.trimChars_append_cons hgap hfirst, List.rdropWhile_idempotent]
  have hline : Text.trim (indent ++ "module".toList ++ ' ' :: gap ++ first :: rest) =
      directive.toList ++ (gap ++ Text.trim (first :: rest)) := by
    rw [trim_line hindent hfirst, directive_toList]
    simp
  rw [ofLine?_of_trim hline, hread]

/-- A line with a tab behind the word declares nothing. -/
theorem ofLine?_tabbed (hindent : ∀ c ∈ indent, Text.isBlank c) (hfirst : Text.isBlank first = false) :
    ofLine? (indent ++ "module".toList ++ '\t' :: gap ++ first :: rest) = none := by
  apply ofLine?_eq_none
  rw [trim_line hindent hfirst, directive_toList, List.append_assoc, List.prefix_append_right_inj,
    List.cons_append, List.cons_prefix_cons]
  rintro ⟨h, -⟩
  exact absurd h (by decide)

end Line

/-! ## Characters of paths -/

theorem toNat_lt_of_isPathChar {c : Char} (h : isPathChar c) : c.toNat < 128 := by
  rcases Bool.or_eq_true_iff.mp h with hword | hmark
  · have hlast : c.toNat ≤ 'Z'.toNat ∨ c.toNat ≤ 'z'.toNat ∨ c.toNat ≤ '9'.toNat := by
      rcases Bool.or_eq_true_iff.mp hword with hletter | hdigit
      · rcases Bool.or_eq_true_iff.mp hletter with hupper | hlower
        · exact .inl (of_decide_eq_true hupper).2
        · exact .inr (.inl (of_decide_eq_true (Bool.and_eq_true_iff.mp hlower).2))
      · exact .inr (.inr (of_decide_eq_true (Bool.and_eq_true_iff.mp hdigit).2))
    simp only [Char.reduceToNat] at hlast
    omega
  · simp only [decide_eq_true_eq, List.mem_cons, List.not_mem_nil, or_false] at hmark
    rcases hmark with rfl | rfl | rfl | rfl | rfl | rfl <;> decide

/-- White space, quotes and backslashes are no characters of a path. -/
theorem kept_of_isPathChar {c : Char} (h : isPathChar c) : Text.isBlank c = false ∧ c ≠ '"' ∧ c ≠ '\\' := by
  have hascii : ∀ n < 128, isPathChar (Char.ofNat n) →
      Text.isBlank (Char.ofNat n) = false ∧ Char.ofNat n ≠ '"' ∧ Char.ofNat n ≠ '\\' := by decide
  have hc := hascii c.toNat (toNat_lt_of_isPathChar h)
  rw [Char.ofNat_toNat] at hc
  exact hc h

theorem IsPath.ne_nil {path : List Char} (h : IsPath path) : path ≠ [] := by
  rintro rfl
  exact h.elements (by simp [Text.splitAt])

/-- The beginnings of what a path cannot hold: of a comment, of a raw string and of an escape. -/
def marks : List (List Char) := [['/', '/'], ['\x60'], ['\\']]

theorem not_infix_of_isPath {path mark : List Char} (h : IsPath path) (hmark : mark ∈ marks) : ¬ mark <:+: path := by
  rintro ⟨a, b, rfl⟩
  rcases List.mem_cons.mp hmark with rfl | hmark
  · apply h.elements
    have hsplit : a ++ ['/', '/'] ++ b = a ++ '/' :: '/' :: b := by simp
    rw [hsplit, Text.splitAt_append_sep, Text.splitAt, if_pos rfl]
    simp
  · have hchar : ∀ c ∈ mark, isPathChar c := fun c hc => h.chars c (by simp [hc])
    rcases List.mem_cons.mp hmark with rfl | hmark
    · exact absurd (hchar _ (.head _)) (by decide)
    · obtain rfl := List.mem_singleton.mp hmark
      exact absurd (hchar _ (.head _)) (by decide)

theorem Escapes.eq_or_infix {inside text : List Char} (h : Escapes inside text) :
    inside = text ∨ ['\\'] <:+: inside := by
  induction h with
  | nil => exact .inl rfl
  | plain _ _ _ ih =>
    rcases ih with rfl | hin
    · exact .inl rfl
    · exact .inr (List.infix_cons hin)
  | coded => exact .inr ⟨[], _, rfl⟩

/-- A path that is written neither bare nor between quotes has a backquote or a backslash. -/
theorem Spells.plain_or_infix {written path : List Char} (h : Spells written path) :
    (written = path ∨ written = '"' :: (path ++ ['"'])) ∨ ∃ mark ∈ marks, mark <:+: written := by
  cases h with
  | bare => exact .inl (.inl rfl)
  | raw => exact .inr ⟨['\x60'], by decide, [], _, rfl⟩
  | quoted h =>
    rcases h.eq_or_infix with rfl | hin
    · exact .inl (.inr rfl)
    · exact .inr ⟨['\\'], by decide, List.infix_cons (hin.trans (List.prefix_append _ _).isInfix)⟩

theorem Spells.exists_cons {written path : List Char} (h : Spells written path) (hpath : IsPath path) :
    ∃ first rest, written = first :: rest ∧ Text.isBlank first = false := by
  cases h with
  | bare =>
    obtain ⟨first, rest, rfl⟩ := List.exists_cons_of_ne_nil hpath.ne_nil
    exact ⟨first, rest, rfl, (kept_of_isPathChar (hpath.chars first (.head _))).1⟩
  | raw => exact ⟨_, _, rfl, by decide⟩
  | quoted => exact ⟨_, _, rfl, by decide⟩

theorem marks_kept {mark : List Char} (h : mark ∈ marks) :
    (∀ c ∈ mark, Text.isBlank c = false) ∧ ∀ c ∈ mark, (c == '"') = false := by
  have hall : marks.flatten.all fun c => Text.isBlank c = false ∧ (c == '"') = false := by decide
  have hkept := fun c hc => of_decide_eq_true (List.all_eq_true.mp hall c (List.mem_flatten_of_mem h hc))
  exact ⟨fun c hc => (hkept c hc).1, fun c hc => (hkept c hc).2⟩

/-! ## Forms of a directive -/

theorem isBlank_of_mem (s : Spaces) {c : Char} (h : c ∈ s.1) : Text.isBlank c := by
  rcases s.2 c h with rfl | rfl <;> decide

namespace Directive

variable {d : Directive}

/-- What is read of a path in the plain form. -/
theorem trim_operand (hcomment : d.comment = none)
    (hwritten : d.written = d.path ∨ d.written = '"' :: (d.path ++ ['"'])) :
    Text.trimChars (· == '"') (Text.trim d.operand) = d.path := by
  have hkept := fun c hc => kept_of_isPathChar (d.isPath.chars c hc)
  have hoperand : d.operand = [] ++ d.written ++ d.trailing.1 := by simp [operand, hcomment]
  have hblank : ∀ c ∈ d.written, Text.isBlank c = false := by
    rcases hwritten with h | h <;> rw [h]
    · exact fun c hc => (hkept c hc).1
    · simp only [List.mem_cons, List.mem_append, List.not_mem_nil, or_false]
      rintro c (rfl | hc | rfl)
      · decide
      · exact (hkept c hc).1
      · decide
  have hne : d.written ≠ [] := by
    obtain ⟨first, rest, h, -⟩ := d.spells.exists_cons d.isPath
    simp [h]
  have hquotes : ∀ c ∈ d.path, (c == '"') = false := fun c hc => by simp [(hkept c hc).2.1]
  rw [hoperand, Text.trim, Text.trimChars_append_append (List.forall_mem_nil _) hblank hne
    fun c => isBlank_of_mem d.trailing]
  rcases hwritten with h | h
  · have hends : Text.trimChars (· == '"') ([] ++ d.path ++ []) = d.path :=
      Text.trimChars_append_append (List.forall_mem_nil _) hquotes d.isPath.ne_nil (List.forall_mem_nil _)
    rw [h]
    simpa using hends
  · have hends : Text.trimChars (· == '"') (['"'] ++ d.path ++ ['"']) = d.path :=
      Text.trimChars_append_append (by simp) hquotes d.isPath.ne_nil (by simp)
    rw [h]
    simpa using hends

/-- **In every form but the plain one something stays that no path holds.** -/
theorem exists_mark_of_not_plain
    (h : ¬ (d.comment = none ∧ (d.written = d.path ∨ d.written = '"' :: (d.path ++ ['"'])))) :
    ∃ mark ∈ marks, mark <:+: d.operand := by
  cases hcomment : d.comment with
  | some text =>
    exact ⟨['/', '/'], by decide, d.written ++ d.trailing.1, text, by simp [operand, hcomment]⟩
  | none =>
    rcases d.spells.plain_or_infix with hplain | ⟨mark, hmark, hin⟩
    · exact absurd ⟨hcomment, hplain⟩ h
    · exact ⟨mark, hmark, hin.trans ⟨[], d.trailing.1, by simp [operand, hcomment]⟩⟩

/-- **A directive declares its path exactly in the plain form.** -/
theorem ofLine?_line_iff (d : Directive) : ofLine? d.line = some (String.ofList d.path) ↔ d.IsPlain := by
  obtain ⟨first, rest, hwritten, hfirst⟩ := d.spells.exists_cons d.isPath
  obtain ⟨more, hoperand⟩ : ∃ more, d.operand = first :: more := ⟨_, by rw [operand, hwritten]; rfl⟩
  obtain ⟨c, gap, hgap⟩ := List.exists_cons_of_ne_nil d.gap_ne_nil
  have hindent : ∀ c ∈ d.indent.1, Text.isBlank c := fun _ => isBlank_of_mem d.indent
  have hblank : ∀ c ∈ gap, Text.isBlank c := fun c hc => isBlank_of_mem d.gap (by rw [hgap]; exact .tail _ hc)
  rcases d.gap.2 c (by rw [hgap]; exact .head _) with rfl | rfl
  · have hread : ofLine? d.line =
        let path := Text.trimChars (· == '"') (Text.trim d.operand)
        if path.isEmpty then none else some (String.ofList path) := by
      rw [line, hgap, hoperand, ofLine?_spaced hindent hblank hfirst]
    by_cases hplain : d.comment = none ∧ (d.written = d.path ∨ d.written = '"' :: (d.path ++ ['"']))
    · rw [hread, trim_operand hplain.1 hplain.2]
      have hne : d.path.isEmpty = false := by simpa using d.isPath.ne_nil
      simp only [hne, Bool.false_eq_true, if_false, true_iff]
      exact ⟨by rw [hgap]; rfl, hplain.1, hplain.2⟩
    · refine iff_of_false ?_ fun h => hplain ⟨h.comment, h.written⟩
      obtain ⟨mark, hmark, hin⟩ := exists_mark_of_not_plain hplain
      have hstays := Text.infix_trimChars (marks_kept hmark).2 (Text.infix_trimChars (marks_kept hmark).1 hin)
      intro h
      rw [hread] at h
      dsimp only at h
      split at h
      · cases h
      · have hpath := String.ofList_injective (Option.some.inj h)
        exact not_infix_of_isPath d.isPath hmark (hpath ▸ hstays)
  · refine iff_of_false ?_ fun h => ?_
    · rw [line, hgap, hoperand, ofLine?_tabbed hindent hfirst]
      simp
    · have := h.gap
      rw [hgap] at this
      simp at this

end Directive

/-! ## Detection -/

variable {disk : Disk} {root : Location} {text : String}

/-- The path of a module is what the first line that declares one declares, wherever a line ends. -/
theorem detect_of_find? (hfile : disk.find? (root.join fileName) = .ok (some (.file text.toUTF8))) :
    detect disk root =
      match (Text.lines text.toList).findSome? ofLine? with
      | some path => .ok path
      | none => .error (.undeclared (root.join fileName)) := by
  have hread : disk.readText (root.join fileName) = .ok (String.ofList (Text.unifyNewlines text.toList)) := by
    rw [Disk.readText, Disk.readBytes_eq_ok_iff.mpr hfile]
    dsimp only
    rw [Disk.decode_toUTF8]
  have hlines : ofText? (String.ofList (Text.unifyNewlines text.toList)) =
      (Text.lines text.toList).findSome? ofLine? := by
    rw [ofText?, String.toList_ofList, Text.lines_unifyNewlines]
  cases hfind : (Text.lines text.toList).findSome? ofLine? <;> simp only [detect, hread, hlines, hfind]

theorem findSome?_ofLine? {lines : List (List Char)} (h : ∀ line ∈ lines, ¬ IsModuleLine line) :
    lines.findSome? ofLine? = none := by
  rw [List.findSome?_eq_none_iff]
  intro line hline
  cases hread : ofLine? line with
  | none => rfl
  | some path => exact absurd (isModuleLine_of_ofLine? hread) (h line hline)

/-- **The path of a module is found exactly where its directive has the plain form.** Where no module line stands
before the directive, `detect` gives the path that it declares if a space stands behind the word, the path is bare or
between quotes, and no comment follows. Where none stands behind it either, it gives this path only then. In a text
without module lines it says that there is no directive. -/
theorem detect_declared_iff (hfile : disk.find? (root.join fileName) = .ok (some (.file text.toUTF8))) :
    (∀ before d after, Text.lines text.toList = before ++ Directive.line d :: after →
      (∀ line ∈ before, ¬ IsModuleLine line) →
        (d.IsPlain → detect disk root = .ok (String.ofList d.path)) ∧
        ((∀ line ∈ after, ¬ IsModuleLine line) →
          detect disk root = .ok (String.ofList d.path) → d.IsPlain)) ∧
    ((∀ line ∈ Text.lines text.toList, ¬ IsModuleLine line) →
      detect disk root = .error (.undeclared (root.join fileName))) := by
  rw [detect_of_find? hfile]
  constructor
  · intro before d after hlines hbefore
    rw [hlines, List.findSome?_append, findSome?_ofLine? hbefore, Option.none_or, List.findSome?_cons]
    constructor
    · intro hplain
      rw [d.ofLine?_line_iff.mpr hplain]
    · intro hafter
      rw [findSome?_ofLine? hafter, ← d.ofLine?_line_iff]
      cases ofLine? d.line <;> simp
  · intro hnone
    rw [findSome?_ofLine? hnone]

/-- A project that has this text for its `go.mod`. -/
def declaring (text : String) : Disk := { nodes := [([fileName], .file text.toUTF8)], current := [] }

/-- A directive with one character behind the word. -/
def sampleDirective (gap : Char) (hgap : gap = ' ' ∨ gap = '\t') (comment : Option (List Char)) : Directive where
  indent := ⟨[], List.forall_mem_nil _⟩
  gap := ⟨[gap], by simpa using hgap⟩
  gap_ne_nil := List.cons_ne_nil _ _
  path := "example.com/app".toList
  isPath := ⟨List.all_eq_true.mp (by decide), by decide⟩
  written := "example.com/app".toList
  spells := .bare _
  trailing := ⟨[], List.forall_mem_nil _⟩
  comment := comment

/-- Comments and blank lines stand before a directive that is found. -/
theorem detect_declared_iff_commented :
    (declaring "// Header\r\n\nmodule example.com/app\n").find? ((⟨true, []⟩ : Location).join fileName) =
      .ok (some (.file "// Header\r\n\nmodule example.com/app\n".toUTF8)) ∧
    detect (declaring "// Header\r\n\nmodule example.com/app\n") ⟨true, []⟩ = .ok "example.com/app" := by
  have hfile : (declaring "// Header\r\n\nmodule example.com/app\n").find? ((⟨true, []⟩ : Location).join fileName) =
      .ok (some (.file "// Header\r\n\nmodule example.com/app\n".toUTF8)) := by decide +kernel
  have hidle : ∀ line ∈ ["// Header".toList, []], ¬ IsModuleLine line := by
    intro line hline
    apply not_isModuleLine_of_head
    revert line
    decide
  have hplain : (sampleDirective ' ' (.inl rfl) none).IsPlain := ⟨rfl, rfl, .inl rfl⟩
  exact ⟨hfile, ((detect_declared_iff hfile).1 _ _ [] (by decide) hidle).1 hplain⟩

/-- The path behind a tab is not found. -/
theorem detect_tabbed :
    ¬ ∀ (disk : Disk) (root : Location) (text : String) (before : List (List Char)) (d : Directive)
      (after : List (List Char)), disk.find? (root.join fileName) = .ok (some (.file text.toUTF8)) →
        Text.lines text.toList = before ++ d.line :: after →
          (∀ line ∈ before ++ after, ¬ IsModuleLine line) → detect disk root = .ok (String.ofList d.path) := by
  intro hall
  have hread := hall (declaring "module\texample.com/app\n") ⟨true, []⟩ "module\texample.com/app\n" []
    (sampleDirective '\t' (.inr rfl) none) [] (by decide +kernel) (by decide) (by simp)
  exact absurd hread (by decide +kernel)

end LayerLint.ModulePath
