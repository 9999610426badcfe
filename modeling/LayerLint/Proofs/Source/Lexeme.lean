import LayerLint.Source.Token
import Mathlib.Data.List.Basic
import Mathlib.Data.List.Infix
import Mathlib.Data.List.TakeWhile
import Mathlib.Tactic.Common

/-!
# How source text is read

`IsLexeme` says which characters make up a token where given characters follow them, and `IsComment` the same of
comments. `Reads` cuts a whole text into both: blanks and comments separate tokens, and a line break or the end of the
text is a terminator if the token before it can end a statement. Every text is read in one way, and `tokens` finds it
(`reads_iff`).
-/

namespace LayerLint.Source

/-! ## Lexemes -/

/-- The characters that have hexadecimal digits behind them where a backslash stands before them, with the number of
these digits. -/
def numberedEscapes : List (Char × Nat) := [('x', 2), ('u', 4), ('U', 8)]

/-- The inside of a literal between quotes: neither a quote nor a line break stands in it by itself, and a backslash
takes along the character behind it, with its digits if it wants some. -/
inductive IsQuoted (quote : Char) : List Char → Prop
  | nil : IsQuoted quote []
  | plain {c : Char} {s : List Char} (hquote : c ≠ quote) (hbreak : c ≠ '\n') (hbackslash : c ≠ '\\')
      (h : IsQuoted quote s) : IsQuoted quote (c :: s)
  | escaped {c : Char} {s : List Char} (halone : c ∉ numberedEscapes.map (·.1)) (h : IsQuoted quote s) :
      IsQuoted quote ('\\' :: c :: s)
  | numbered {c : Char} {digits s : List Char} (hcount : (c, digits.length) ∈ numberedEscapes)
      (hdigits : ∀ d ∈ digits, Text.isHex d) (h : IsQuoted quote s) : IsQuoted quote ('\\' :: c :: (digits ++ s))

/-- A literal that begins in front of the text is well-formed up to a quote that closes it. -/
def IsClosed (quote : Char) (s : List Char) : Prop := ∃ inside rest, IsQuoted quote inside ∧ s = inside ++ quote :: rest

/-- The sign that closes a comment. -/
def commentEnd : List Char := ['*', '/']

/-- The character may continue a number. -/
def isNumberChar (c : Char) : Bool := isLetterOrDigit c || c == '.'

/-- The mark is only the beginning of a longer lexeme or of a comment where `r` follows. -/
def IsLead (c : Char) (r : List Char) : Prop :=
  (c = '.' ∧ (r.headD ' ').isDigit) ∨ (c = '.' ∧ r.take 2 = ['.', '.']) ∨ ((c = '+' ∨ c = '-') ∧ r.headD ' ' = c) ∨
    (c = '/' ∧ r.headD ' ' = '/') ∨ (c = '/' ∧ r.headD ' ' = '*')

/-- The character is a line break or a blank. -/
def separates (c : Char) : Bool := c == '\n' || isSpace c

/-- The character begins no lexeme. -/
structure IsStray (c : Char) : Prop where
  blank : separates c = false
  letter : isLetter c = false
  digit : c.isDigit = false
  quote : c ∉ ['"', '\'', '\x60', ';']
  mark : c ∉ markChars

/-- The characters are a token where `r` follows them. -/
inductive IsLexeme : List Char → TokenKind → List Char → Prop
  | semicolon {r : List Char} : IsLexeme [';'] .terminator r
  | word {c : Char} {tail r : List Char} (hfirst : isLetter c) (htail : ∀ d ∈ tail, isLetterOrDigit d)
      (hrest : ∀ d ∈ r.head?, isLetterOrDigit d = false) :
      IsLexeme (c :: tail) (.word (String.ofList (c :: tail))) r
  | number {c : Char} {tail r : List Char} (hfirst : c.isDigit ∨ c = '.' ∧ (tail.headD ' ').isDigit)
      (htail : ∀ d ∈ tail, isNumberChar d) (hrest : ∀ d ∈ r.head?, isNumberChar d = false) :
      IsLexeme (c :: tail) .literal r
  | string {inside r : List Char} (h : IsQuoted '"' inside) :
      IsLexeme ('"' :: (inside ++ ['"'])) (.string (String.ofList ('"' :: (inside ++ ['"'])))) r
  | rawString {inside r : List Char} (h : '\x60' ∉ inside) :
      IsLexeme ('\x60' :: (inside ++ ['\x60'])) (.string (String.ofList ('\x60' :: (inside ++ ['\x60'])))) r
  | character {inside r : List Char} (h : IsQuoted '\'' inside) : IsLexeme ('\'' :: (inside ++ ['\''])) .literal r
  | ellipsis {r : List Char} : IsLexeme ['.', '.', '.'] (.mark "...") r
  | doubled {c : Char} {r : List Char} (h : c = '+' ∨ c = '-') : IsLexeme [c, c] (.mark (String.ofList [c, c])) r
  | mark {c : Char} {r : List Char} (h : c ∈ markChars) (halone : ¬ IsLead c r) :
      IsLexeme [c] (.mark (String.singleton c)) r
  /-- A literal that is not well-formed up to a quote on its line. -/
  | unclosed {quote : Char} {text r : List Char} (hquote : quote = '"' ∨ quote = '\'')
      (hopen : ¬ IsClosed quote (text ++ r)) (hline : '\n' ∉ text) (hrest : ∀ d ∈ r.head?, d = '\n') :
      IsLexeme (quote :: text) .illegal r
  | unclosedRaw {text : List Char} (hopen : '\x60' ∉ text) : IsLexeme ('\x60' :: text) .illegal []
  | unclosedComment {text : List Char} (hopen : ¬ commentEnd <:+: text) : IsLexeme ('/' :: '*' :: text) .illegal []
  | stray {c : Char} {r : List Char} (h : IsStray c) : IsLexeme [c] .illegal r

/-- The characters are a comment where `r` follows them. -/
inductive IsComment : List Char → List Char → Prop
  | line {text r : List Char} (htext : '\n' ∉ text) (hrest : ∀ d ∈ r.head?, d = '\n') :
      IsComment ('/' :: '/' :: text) r
  | block {text r : List Char} (h : ¬ commentEnd <:+: text) : IsComment ('/' :: '*' :: (text ++ commentEnd)) r

/-- What a line break means behind a token. -/
def breakAfter (ends : Bool) : List TokenKind := if ends then [.terminator] else []

/-- The text is read as tokens of these kinds; `ends` says whether what was read before ends a statement at a line
break. -/
inductive Reads : Bool → List Char → List TokenKind → Prop
  | nil {ends : Bool} : Reads ends [] (breakAfter ends)
  | lineBreak {ends : Bool} {s : List Char} {kinds : List TokenKind} (h : Reads false s kinds) :
      Reads ends ('\n' :: s) (breakAfter ends ++ kinds)
  | space {ends : Bool} {c : Char} {s : List Char} {kinds : List TokenKind} (hc : isSpace c)
      (h : Reads ends s kinds) : Reads ends (c :: s) kinds
  | comment {ends : Bool} {comment s : List Char} {kinds : List TokenKind} (hcomment : IsComment comment s)
      (h : Reads ends s kinds) : Reads ends (comment ++ s) kinds
  | token {ends : Bool} {lexeme s : List Char} {kind : TokenKind} {kinds : List TokenKind}
      (hlexeme : IsLexeme lexeme kind s) (h : Reads kind.endsStatement s kinds) :
      Reads ends (lexeme ++ s) (kind :: kinds)

/-! ## Lengths -/

theorem takeWhile_append_of_head {p : Char → Bool} {s r : List Char} (hs : ∀ d ∈ s, p d)
    (hr : ∀ d ∈ r.head?, p d = false) : (s ++ r).takeWhile p = s := by
  rw [List.takeWhile_append_of_pos hs]
  cases r with
  | nil => simp
  | cons d r => simp [hr d rfl]

theorem lineLength_append {text r : List Char} (htext : '\n' ∉ text) (hr : ∀ d ∈ r.head?, d = '\n') :
    lineLength (text ++ r) = text.length := by
  rw [lineLength, takeWhile_append_of_head]
  · intro d hd
    have hne : d ≠ '\n' := fun h => htext (h ▸ hd)
    simpa using hne
  · intro d hd
    simp [hr d hd]

section Quoted

variable {quote : Char}

theorem escapeDigits_of_not_mem {c : Char} (h : c ∉ numberedEscapes.map (·.1)) : escapeDigits c = 0 := by
  simp only [numberedEscapes, List.map_cons, List.map_nil, List.mem_cons, List.not_mem_nil, or_false, not_or] at h
  simp [escapeDigits, h]

theorem escapeDigits_of_mem {c : Char} {count : Nat} (h : (c, count) ∈ numberedEscapes) : escapeDigits c = count := by
  simp only [numberedEscapes, List.mem_cons, List.not_mem_nil, or_false, Prod.mk.injEq] at h
  rcases h with ⟨rfl, rfl⟩ | ⟨rfl, rfl⟩ | ⟨rfl, rfl⟩ <;> rfl

/-- An escape with the digits that it wants belongs to the inside. -/
theorem IsQuoted.escape {c : Char} {digits s : List Char} (hcount : digits.length = escapeDigits c)
    (hdigits : ∀ d ∈ digits, Text.isHex d) (h : IsQuoted quote s) : IsQuoted quote ('\\' :: c :: (digits ++ s)) := by
  by_cases halone : c ∈ numberedEscapes.map (·.1)
  · obtain ⟨⟨_, count⟩, hmem, rfl⟩ := List.mem_map.mp halone
    exact .numbered (by rwa [hcount, escapeDigits_of_mem hmem]) hdigits h
  · rw [escapeDigits_of_not_mem halone, List.length_eq_zero_iff] at hcount
    rw [hcount]
    exact .escaped halone h

/-- Digits that are wanted are passed over. -/
theorem quotedLength?_digits {digits : List Char} (hdigits : ∀ d ∈ digits, Text.isHex d) (s : List Char) :
    quotedLength? quote (.digits digits.length) (digits ++ s) =
      (quotedLength? quote (.digits 0) s).map (· + digits.length) := by
  induction digits with
  | nil => simp
  | cons d digits ih =>
    rw [List.length_cons, List.cons_append, quotedLength?, if_pos (hdigits d (.head _)),
      ih fun d hd => hdigits d (.tail _ hd), Option.map_map]
    rfl

/-- An escape is passed over. -/
theorem quotedLength?_escape (hquote : quote ≠ '\\') {c : Char} (digits : List Char)
    (hcount : escapeDigits c = digits.length) (hdigits : ∀ d ∈ digits, Text.isHex d) (s : List Char) :
    quotedLength? quote (.digits 0) ('\\' :: c :: (digits ++ s)) =
      (quotedLength? quote (.digits 0) s).map (· + (digits.length + 2)) := by
  rw [quotedLength?, if_neg hquote.symm, if_neg (by decide), if_pos rfl, quotedLength?, hcount,
    quotedLength?_digits hdigits, Option.map_map, Option.map_map]
  rfl

theorem quotedLength?_append {inside : List Char} (hquote : quote ≠ '\\') (h : IsQuoted quote inside) (r : List Char) :
    quotedLength? quote (.digits 0) (inside ++ [quote] ++ r) = some (inside ++ [quote]).length := by
  induction h with
  | nil => simp [quotedLength?]
  | plain hne hbreak hbackslash _ ih => simpa [quotedLength?, hne, hbreak, hbackslash] using ih
  | @escaped c s halone _ ih =>
    have hescape := quotedLength?_escape hquote [] (escapeDigits_of_not_mem halone) nofun (s ++ [quote] ++ r)
    rw [ih] at hescape
    simpa using hescape
  | @numbered c digits s hcount hdigits _ ih =>
    have hescape := quotedLength?_escape hquote digits (escapeDigits_of_mem hcount) hdigits (s ++ [quote] ++ r)
    rw [ih] at hescape
    simpa [Nat.add_comm, Nat.add_left_comm] using hescape

/-- The literal is closed behind what it has to go on with. -/
def IsClosedBehind (quote : Char) : Expected → List Char → Prop
  | .digits count, s =>
    ∃ digits rest, digits.length = count ∧ (∀ d ∈ digits, Text.isHex d) ∧ s = digits ++ rest ∧ IsClosed quote rest
  | .escaped, s =>
    ∃ c digits rest, digits.length = escapeDigits c ∧ (∀ d ∈ digits, Text.isHex d) ∧ s = c :: (digits ++ rest) ∧
      IsClosed quote rest

theorem isClosedBehind_zero {s : List Char} : IsClosedBehind quote (.digits 0) s ↔ IsClosed quote s := by
  constructor
  · rintro ⟨digits, rest, hcount, -, rfl, h⟩
    rwa [List.length_eq_zero_iff.mp hcount]
  · exact fun h => ⟨[], s, rfl, nofun, rfl, h⟩

/-- Where a length is found the literal is closed. -/
theorem isClosedBehind_of_quotedLength? {expected : Expected} {n : Nat} {s : List Char}
    (h : quotedLength? quote expected s = some n) : IsClosedBehind quote expected s := by
  fun_induction quotedLength? quote expected s generalizing n with
  | case1 => cases h
  | case2 c r ih =>
    obtain ⟨m, hm, -⟩ := Option.map_eq_some_iff.mp h
    obtain ⟨digits, rest, hcount, hdigits, rfl, hrest⟩ := ih hm
    exact ⟨c, digits, rest, hcount, hdigits, rfl, hrest⟩
  | case3 count c r hhex ih =>
    obtain ⟨m, hm, -⟩ := Option.map_eq_some_iff.mp h
    obtain ⟨digits, rest, rfl, hdigits, rfl, hrest⟩ := ih hm
    exact ⟨c :: digits, rest, rfl, List.forall_mem_cons.mpr ⟨hhex, hdigits⟩, rfl, hrest⟩
  | case4 => cases h
  | case5 r => exact isClosedBehind_zero.mpr ⟨[], r, .nil, rfl⟩
  | case6 => cases h
  | case7 c r hquote hbreak ih =>
    obtain ⟨m, hm, -⟩ := Option.map_eq_some_iff.mp h
    rw [isClosedBehind_zero]
    by_cases hbackslash : c = '\\'
    · simp only [hbackslash, if_true] at hm ih
      obtain ⟨d, digits, rest, hcount, hdigits, rfl, inside, more, hinside, rfl⟩ := ih hm
      exact ⟨'\\' :: d :: (digits ++ inside), more, hinside.escape hcount hdigits, by rw [hbackslash]; simp⟩
    · simp only [hbackslash, if_false] at hm ih
      obtain ⟨inside, rest, hinside, rfl⟩ := isClosedBehind_zero.mp (ih hm)
      exact ⟨c :: inside, rest, .plain hquote hbreak hbackslash hinside, rfl⟩

theorem quotedLength?_eq_none {s : List Char} (h : ¬ IsClosed quote s) : quotedLength? quote (.digits 0) s = none := by
  cases hlength : quotedLength? quote (.digits 0) s with
  | none => rfl
  | some n => exact absurd (isClosedBehind_zero.mp (isClosedBehind_of_quotedLength? hlength)) h

end Quoted

theorem rawLength?_append {inside : List Char} (h : '\x60' ∉ inside) (r : List Char) :
    rawLength? (inside ++ ['\x60'] ++ r) = some (inside ++ ['\x60']).length := by
  induction inside with
  | nil => simp [rawLength?]
  | cons c inside ih =>
    obtain ⟨hc, hinside⟩ := not_or.mp (List.mem_cons.not.mp h)
    simpa [rawLength?, Ne.symm hc] using ih hinside

theorem rawLength?_eq_none {s : List Char} (h : '\x60' ∉ s) : rawLength? s = none := by
  induction s with
  | nil => rfl
  | cons c s ih =>
    obtain ⟨hc, hs⟩ := not_or.mp (List.mem_cons.not.mp h)
    simp [rawLength?, Ne.symm hc, ih hs]

theorem commentLength?_append {text : List Char} (h : ¬ commentEnd <:+: text) (r : List Char) :
    commentLength? (text ++ commentEnd ++ r) = some (text.length + 2) := by
  induction text with
  | nil => rfl
  | cons c text ih =>
    have hrest : ¬ commentEnd <:+: text := fun hin => h (List.infix_cons hin)
    have hhead : ∀ rest, c = '*' → text ++ commentEnd ++ r = '/' :: rest → False := by
      rintro rest rfl heq
      cases text with
      | nil => simp [commentEnd] at heq
      | cons d text =>
        obtain ⟨rfl, -⟩ := List.cons.inj heq
        exact h ⟨[], text, rfl⟩
    rw [List.cons_append, List.cons_append, commentLength?.eq_3 _ _ hhead, ih hrest]
    rfl

theorem commentLength?_eq_none {s : List Char} (h : ¬ commentEnd <:+: s) : commentLength? s = none := by
  induction s with
  | nil => rfl
  | cons c s ih =>
    have hhead : ∀ rest, c = '*' → s = '/' :: rest → False := by
      rintro rest rfl rfl
      exact h ⟨[], rest, rfl⟩
    rw [commentLength?.eq_3 _ _ hhead, ih fun hin => h (List.infix_cons hin)]
    rfl

/-! ## Scanning -/

theorem scan_quote (r : List Char) : scan '"' r =
    match quotedLength? '"' (.digits 0) r with
    | some n => (some (.string (String.ofList ('"' :: r.take n))), n + 1)
    | none => (some .illegal, lineLength r + 1) := rfl

theorem scan_apostrophe (r : List Char) : scan '\'' r =
    match quotedLength? '\'' (.digits 0) r with
    | some n => (some .literal, n + 1)
    | none => (some .illegal, lineLength r + 1) := rfl

theorem scan_backquote (r : List Char) : scan '\x60' r =
    match rawLength? r with
    | some n => (some (.string (String.ofList ('\x60' :: r.take n))), n + 1)
    | none => (some .illegal, r.length + 1) := rfl

theorem scan_line (r : List Char) : scan '/' ('/' :: r) = (none, lineLength ('/' :: r) + 1) := rfl

theorem scan_block (r : List Char) : scan '/' ('*' :: r) =
    match commentLength? r with
    | some n => (none, n + 2)
    | none => (some .illegal, r.length + 2) := rfl

theorem kinds_markChars :
    markChars.all fun c => isLetter c = false ∧ c.isDigit = false ∧ c ∉ ['"', '\'', '\x60', ';'] := by decide

theorem kinds_of_mem_markChars {c : Char} (h : c ∈ markChars) :
    isLetter c = false ∧ c.isDigit = false ∧ c ∉ ['"', '\'', '\x60', ';'] :=
  of_decide_eq_true (List.all_eq_true.mp kinds_markChars c h)

theorem isLetter_of_isDigit {c : Char} (h : c.isDigit) : isLetter c = false := by
  simp only [Char.isDigit, Bool.and_eq_true, decide_eq_true_eq, ge_iff_le, UInt32.le_iff_toNat_le, Char.toNat_val,
    Char.reduceToNat] at h
  have hsmall : ∀ n < 58, 48 ≤ n → isLetter (Char.ofNat n) = false := by decide
  have hc := hsmall c.toNat (by omega) (by omega)
  rwa [Char.ofNat_toNat] at hc

/-- **A lexeme is what is scanned.** -/
theorem scan_lexeme {c : Char} {tail r : List Char} {kind : TokenKind} (h : IsLexeme (c :: tail) kind r) :
    scan c (tail ++ r) = (some kind, tail.length + 1) := by
  cases h with
  | semicolon => rfl
  | word hfirst htail hrest =>
    have hne : c ≠ ';' := by rintro rfl; exact absurd hfirst (by decide)
    rw [scan, if_neg hne, if_pos hfirst]
    simp only [takeWhile_append_of_head htail hrest]
  | number hfirst htail hrest =>
    have hletter : isLetter c = false ∧ c ≠ ';' := by
      rcases hfirst with hdigit | ⟨rfl, -⟩
      · refine ⟨isLetter_of_isDigit hdigit, ?_⟩
        rintro rfl
        exact absurd hdigit (by decide)
      · decide
    have hdigit : (c.isDigit || (c = '.' && ((tail ++ r).headD ' ').isDigit)) = true := by
      rcases hfirst with hdigit | ⟨rfl, hdigit⟩
      · simp [hdigit]
      · cases tail with
        | nil => exact absurd hdigit (by decide)
        | cons d tail => simpa using hdigit
    rw [scan, if_neg hletter.2, if_neg (by simp [hletter.1]), if_pos hdigit]
    exact congrArg (fun s => (some TokenKind.literal, s.length + 1)) (takeWhile_append_of_head htail hrest)
  | string h => simp only [scan_quote, quotedLength?_append (by decide) h, List.take_left]
  | rawString h => simp only [scan_backquote, rawLength?_append h, List.take_left]
  | character h => rw [scan_apostrophe, quotedLength?_append (by decide) h]
  | ellipsis => rfl
  | doubled h => rcases h with rfl | rfl <;> rfl
  | mark h halone =>
    obtain ⟨hletter, hdigit, hquote⟩ := kinds_of_mem_markChars h
    simp only [List.mem_cons, List.not_mem_nil, or_false, not_or] at hquote
    obtain ⟨hquote, hapostrophe, hbackquote, hsemicolon⟩ := hquote
    simp only [IsLead, not_or] at halone
    obtain ⟨hnumber, hdots, hdouble, hline, hblock⟩ := halone
    rw [scan, if_neg hsemicolon, if_neg (Bool.eq_false_iff.mp hletter), if_neg (by rw [hdigit]; simpa using hnumber),
      if_neg hquote, if_neg hapostrophe, if_neg hbackquote, if_neg (by simpa using hline),
      if_neg (by simpa using hblock), if_neg (by simpa using hdots), if_neg (by simpa using hdouble),
      if_pos (by simpa using h)]
    rfl
  | unclosed hquote hopen hline hrest =>
    have hlength := quotedLength?_eq_none hopen
    rcases hquote with rfl | rfl
    · rw [scan_quote, hlength, lineLength_append hline hrest]
    · rw [scan_apostrophe, hlength, lineLength_append hline hrest]
  | unclosedRaw hopen => rw [List.append_nil, scan_backquote, rawLength?_eq_none hopen]
  | unclosedComment hopen =>
    rw [List.append_nil, scan_block, commentLength?_eq_none hopen]
    rfl
  | stray h =>
    have hquote := h.quote
    have hmark := h.mark
    simp only [List.mem_cons, List.not_mem_nil, or_false, not_or] at hquote
    have hne : c ≠ '.' ∧ c ≠ '/' ∧ c ≠ '+' ∧ c ≠ '-' := by
      refine ⟨?_, ?_, ?_, ?_⟩ <;> rintro rfl <;> exact absurd hmark (by decide)
    simp [scan, h.letter, h.digit, hquote, hmark, hne]

theorem scan_comment {c : Char} {tail r : List Char} (h : IsComment (c :: tail) r) :
    scan c (tail ++ r) = (none, tail.length + 1) := by
  cases h with
  | @line text _ htext hrest =>
    have htext' : '\n' ∉ '/' :: text := by simp [htext]
    rw [List.cons_append, scan_line, ← List.cons_append, lineLength_append htext' hrest]
  | @block text _ h =>
    rw [List.cons_append, scan_block, commentLength?_append h]
    simp [commentEnd]

/-! ## Every text is read -/

theorem head_dropWhile {p : Char → Bool} {s : List Char} : ∀ d ∈ (s.dropWhile p).head?, p d = false := by
  intro d hd
  have := List.head?_dropWhile_not p s
  rw [Option.mem_def.mp hd] at this
  simpa using this

/-- A text with the sign that closes a comment has a first one. -/
theorem exists_first_commentEnd {s : List Char} (h : commentEnd <:+: s) :
    ∃ text r, s = text ++ commentEnd ++ r ∧ ¬ commentEnd <:+: text := by
  induction s with
  | nil => exact absurd (List.infix_nil.mp h) (by decide)
  | cons c s ih =>
    by_cases hlead : commentEnd <+: c :: s
    · obtain ⟨r, hr⟩ := hlead
      exact ⟨[], r, hr.symm, by decide⟩
    · obtain ⟨text, r, rfl, htext⟩ := ih ((List.infix_cons_iff.mp h).resolve_left hlead)
      refine ⟨c :: text, r, rfl, fun hin => ?_⟩
      rcases List.infix_cons_iff.mp hin with hstart | hin
      · exact hlead (hstart.trans ⟨commentEnd ++ r, by simp⟩)
      · exact htext hin

/-- The characters begin with a lexeme or a comment. -/
def Begins (c : Char) (s : List Char) : Prop :=
  ∃ tail r, s = tail ++ r ∧ ((∃ kind, IsLexeme (c :: tail) kind r) ∨ IsComment (c :: tail) r)

theorem begins_number {c : Char} {s : List Char} (h : c.isDigit ∨ c = '.' ∧ (s.headD ' ').isDigit) : Begins c s := by
  refine ⟨s.takeWhile isNumberChar, s.dropWhile isNumberChar, List.takeWhile_append_dropWhile.symm,
    .inl ⟨_, .number ?_ (fun _ => List.mem_takeWhile_imp) head_dropWhile⟩⟩
  rcases h with hdigit | ⟨rfl, hdigit⟩
  · exact .inl hdigit
  · cases s with
    | nil => exact absurd hdigit (by decide)
    | cons d s =>
      have hd : isNumberChar d := by
        have hdigit' : d.isDigit := by simpa using hdigit
        simp [isNumberChar, isLetterOrDigit, hdigit']
      exact .inr ⟨rfl, by simpa [hd] using hdigit⟩

theorem begins_quoted {quote : Char} {s : List Char} (hquote : quote = '"' ∨ quote = '\'') : Begins quote s := by
  by_cases hclosed : IsClosed quote s
  · obtain ⟨inside, r, hinside, rfl⟩ := hclosed
    refine ⟨inside ++ [quote], r, by simp, .inl ?_⟩
    rcases hquote with rfl | rfl
    · exact ⟨_, .string hinside⟩
    · exact ⟨_, .character hinside⟩
  · refine ⟨s.takeWhile (· != '\n'), s.dropWhile (· != '\n'), List.takeWhile_append_dropWhile.symm,
      .inl ⟨_, .unclosed hquote ?_ ?_ fun d hd => by simpa using head_dropWhile d hd⟩⟩
    · rwa [List.takeWhile_append_dropWhile]
    · intro hmem
      simpa using List.mem_takeWhile_imp hmem

theorem begins_raw (s : List Char) : Begins '\x60' s := by
  by_cases hclosed : '\x60' ∈ s
  · obtain ⟨inside, r, rfl, hinside⟩ := List.eq_append_cons_of_mem hclosed
    exact ⟨inside ++ ['\x60'], r, by simp, .inl ⟨_, .rawString hinside⟩⟩
  · exact ⟨s, [], by simp, .inl ⟨_, .unclosedRaw hclosed⟩⟩

theorem begins_mark {c : Char} {s : List Char} (h : c ∈ markChars) : Begins c s := by
  by_cases hlead : IsLead c s
  · rcases hlead with ⟨rfl, hdigit⟩ | ⟨rfl, hdots⟩ | ⟨hc, hhead⟩ | ⟨rfl, hhead⟩ | ⟨rfl, hhead⟩
    · exact begins_number (.inr ⟨rfl, hdigit⟩)
    · exact ⟨['.', '.'], s.drop 2, by rw [← hdots, List.take_append_drop], .inl ⟨_, .ellipsis⟩⟩
    · obtain ⟨d, s, rfl⟩ : ∃ d r, s = d :: r := by
        cases s with
        | nil =>
          rcases hc with rfl | rfl
          · exact absurd hhead (by decide)
          · exact absurd hhead (by decide)
        | cons d s => exact ⟨d, s, rfl⟩
      obtain rfl : d = c := hhead
      exact ⟨[d], s, rfl, .inl ⟨_, .doubled hc⟩⟩
    · cases s with
      | nil => exact absurd hhead (by decide)
      | cons d s =>
        obtain rfl : d = '/' := hhead
        refine ⟨'/' :: s.takeWhile (· != '\n'), s.dropWhile (· != '\n'), ?_,
          .inr (.line ?_ fun d hd => by simpa using head_dropWhile d hd)⟩
        · rw [List.cons_append, List.takeWhile_append_dropWhile]
        · intro hmem
          simpa using List.mem_takeWhile_imp hmem
    · cases s with
      | nil => exact absurd hhead (by decide)
      | cons d s =>
        obtain rfl : d = '*' := hhead
        by_cases hend : commentEnd <:+: s
        · obtain ⟨text, r, rfl, htext⟩ := exists_first_commentEnd hend
          exact ⟨'*' :: (text ++ commentEnd), r, by simp, .inr (.block htext)⟩
        · exact ⟨'*' :: s, [], by simp, .inl ⟨_, .unclosedComment hend⟩⟩
  · exact ⟨[], s, rfl, .inl ⟨_, .mark h hlead⟩⟩

/-- **A lexeme or a comment begins with every character that is no blank.** -/
theorem begins {c : Char} (hblank : separates c = false) (s : List Char) : Begins c s := by
  by_cases hquote : c ∈ ['"', '\'', '\x60', ';']
  · simp only [List.mem_cons, List.not_mem_nil, or_false] at hquote
    rcases hquote with rfl | rfl | rfl | rfl
    · exact begins_quoted (.inl rfl)
    · exact begins_quoted (.inr rfl)
    · exact begins_raw s
    · exact ⟨[], s, rfl, .inl ⟨_, .semicolon⟩⟩
  by_cases hmark : c ∈ markChars
  · exact begins_mark hmark
  cases hletter : isLetter c with
  | true =>
    exact ⟨s.takeWhile isLetterOrDigit, s.dropWhile isLetterOrDigit, List.takeWhile_append_dropWhile.symm,
      .inl ⟨_, .word hletter (fun _ => List.mem_takeWhile_imp) head_dropWhile⟩⟩
  | false =>
    cases hdigit : c.isDigit with
    | true => exact begins_number (.inl hdigit)
    | false => exact ⟨[], s, rfl, .inl ⟨_, .stray ⟨hblank, hletter, hdigit, hquote, hmark⟩⟩⟩

/-- **Every text is read.** -/
theorem exists_reads (ends : Bool) (s : List Char) : ∃ kinds, Reads ends s kinds := by
  induction hn : s.length using Nat.strongRecOn generalizing ends s with
  | ind n ih =>
    cases s with
    | nil => exact ⟨_, .nil⟩
    | cons c s =>
      by_cases hbreak : c = '\n'
      · obtain ⟨kinds, hkinds⟩ := ih s.length (by rw [← hn]; exact Nat.lt_succ_self _) false s rfl
        rw [hbreak]
        exact ⟨_, .lineBreak hkinds⟩
      by_cases hspace : isSpace c
      · obtain ⟨kinds, hkinds⟩ := ih s.length (by rw [← hn]; exact Nat.lt_succ_self _) ends s rfl
        exact ⟨_, .space hspace hkinds⟩
      have hblank : separates c = false := by simp [separates, hbreak, hspace]
      obtain ⟨tail, r, rfl, hbegins⟩ := begins hblank s
      have hlength : r.length < n := by
        rw [← hn, List.length_cons, List.length_append]
        omega
      rcases hbegins with ⟨kind, hlexeme⟩ | hcomment
      · obtain ⟨kinds, hkinds⟩ := ih _ hlength kind.endsStatement r rfl
        exact ⟨_, .token hlexeme hkinds⟩
      · obtain ⟨kinds, hkinds⟩ := ih _ hlength ends r rfl
        exact ⟨_, .comment hcomment hkinds⟩

/-! ## Reading is computed -/

/-- What belongs to a lexeme is skipped. -/
theorem tokensFrom_append (lexeme s : List Char) (line : Nat) (ends : Bool) :
    ∃ line', tokensFrom lexeme.length line ends (lexeme ++ s) = tokensFrom 0 line' ends s := by
  induction lexeme generalizing line with
  | nil => exact ⟨line, rfl⟩
  | cons c lexeme ih =>
    obtain ⟨line', h⟩ := ih (if c = '\n' then line + 1 else line)
    exact ⟨line', by rw [← h]; rfl⟩

/-- The characters that separate lexemes. -/
def blanks : List Char := ['\n', ' ', '\t', '\r', '\x0b', '\x0c']

theorem kinds_blanks :
    blanks.all fun c => isLetter c = false ∧ c.isDigit = false ∧ c ∉ '.' :: markChars := by decide

theorem kinds_of_separates {c : Char} (h : separates c) :
    isLetter c = false ∧ c.isDigit = false ∧ c ∉ '.' :: markChars := by
  have hmem : c ∈ blanks := by simpa [separates, isSpace, blanks, or_assoc] using h
  exact of_decide_eq_true (List.all_eq_true.mp kinds_blanks c hmem)

theorem IsLexeme.exists_cons {lexeme r : List Char} {kind : TokenKind} (h : IsLexeme lexeme kind r) :
    ∃ c tail, lexeme = c :: tail ∧ separates c = false := by
  cases h with
  | semicolon => exact ⟨_, _, rfl, by decide⟩
  | word hfirst =>
    refine ⟨_, _, rfl, Bool.eq_false_iff.mpr fun hc => ?_⟩
    rw [(kinds_of_separates hc).1] at hfirst
    cases hfirst
  | number hfirst =>
    refine ⟨_, _, rfl, Bool.eq_false_iff.mpr fun hc => ?_⟩
    obtain ⟨-, hdigit, hmark⟩ := kinds_of_separates hc
    rcases hfirst with h | ⟨rfl, -⟩
    · rw [hdigit] at h
      cases h
    · exact hmark (.head _)
  | string | rawString | character | ellipsis | unclosedRaw | unclosedComment => exact ⟨_, _, rfl, by decide⟩
  | doubled h => rcases h with rfl | rfl <;> exact ⟨_, _, rfl, by decide⟩
  | mark h => exact ⟨_, _, rfl, Bool.eq_false_iff.mpr fun hc => (kinds_of_separates hc).2.2 (.tail _ h)⟩
  | unclosed hquote => rcases hquote with rfl | rfl <;> exact ⟨_, _, rfl, by decide⟩
  | stray h => exact ⟨_, _, rfl, h.blank⟩

theorem IsComment.exists_cons {comment r : List Char} (h : IsComment comment r) :
    ∃ c tail, comment = c :: tail ∧ separates c = false := by
  cases h <;> exact ⟨_, _, rfl, by decide⟩

section Steps

variable {c : Char} {s : List Char} {line : Nat} {ends : Bool}

theorem tokensFrom_space (h : isSpace c) : tokensFrom 0 line ends (c :: s) = tokensFrom 0 line ends s := by
  have hbreak : c ≠ '\n' := by rintro rfl; exact absurd h (by decide)
  rw [tokensFrom, if_neg hbreak, if_pos h]

theorem tokensFrom_cons (h : separates c = false) : tokensFrom 0 line ends (c :: s) =
    match scan c s with
    | (some kind, n) => ⟨kind, line⟩ :: tokensFrom (n - 1) line kind.endsStatement s
    | (none, n) => tokensFrom (n - 1) line ends s := by
  obtain ⟨hbreak, hspace⟩ := Bool.or_eq_false_iff.mp h
  have hbreak' : ¬ c = '\n' := by simpa using hbreak
  have hspace' : ¬ isSpace c = true := by simp [hspace]
  exact (if_neg hbreak').trans (if_neg hspace')

/-- A comment is passed over. -/
theorem tokensFrom_comment {comment : List Char} (h : IsComment comment s) :
    ∃ line', tokensFrom 0 line ends (comment ++ s) = tokensFrom 0 line' ends s := by
  obtain ⟨c, tail, rfl, hblank⟩ := h.exists_cons
  obtain ⟨line', hskip⟩ := tokensFrom_append tail s line ends
  refine ⟨line', ?_⟩
  rw [List.cons_append, tokensFrom_cons hblank, scan_comment h]
  exact hskip

/-- A lexeme is a token. -/
theorem tokensFrom_lexeme {lexeme : List Char} {kind : TokenKind} (h : IsLexeme lexeme kind s) :
    ∃ line', tokensFrom 0 line ends (lexeme ++ s) = ⟨kind, line⟩ :: tokensFrom 0 line' kind.endsStatement s := by
  obtain ⟨c, tail, rfl, hblank⟩ := h.exists_cons
  obtain ⟨line', hskip⟩ := tokensFrom_append tail s line kind.endsStatement
  refine ⟨line', ?_⟩
  rw [List.cons_append, tokensFrom_cons hblank, scan_lexeme h]
  exact congrArg (Token.mk kind line :: ·) hskip

end Steps

/-- **`tokens` finds how a text is read.** -/
theorem kinds_tokensFrom {ends : Bool} {s : List Char} {kinds : List TokenKind} (h : Reads ends s kinds) (line : Nat) :
    (tokensFrom 0 line ends s).map (·.kind) = kinds := by
  induction h generalizing line with
  | @nil ends => cases ends <;> rfl
  | @lineBreak ends s kinds _ ih =>
    rw [tokensFrom, if_pos rfl]
    cases ends
    · exact ih (line + 1)
    · exact congrArg (TokenKind.terminator :: ·) (ih (line + 1))
  | space hc _ ih => rw [tokensFrom_space hc, ih]
  | comment hcomment _ ih =>
    obtain ⟨line', hskip⟩ := tokensFrom_comment hcomment
    rw [hskip, ih]
  | token hlexeme _ ih =>
    obtain ⟨line', hskip⟩ := tokensFrom_lexeme hlexeme
    rw [hskip, List.map_cons, ih]

/-- **A text is read in one way, as its tokens say.** -/
theorem reads_iff {s : List Char} {kinds : List TokenKind} :
    Reads false s kinds ↔ (tokens s).map (·.kind) = kinds := by
  constructor
  · exact fun h => kinds_tokensFrom h 1
  · rintro rfl
    obtain ⟨kinds, h⟩ := exists_reads false s
    have hkinds : (tokens s).map (·.kind) = kinds := kinds_tokensFrom h 1
    rwa [hkinds]

end LayerLint.Source
