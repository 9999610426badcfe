import LayerLint.Yaml.Token.Scanner
import LayerLint.Proofs.Yaml.ReadBack.Block
import LayerLint.Proofs.Yaml.ReadBack.Quoted

/-!
# The tokens of printed scalars

How the scanner goes over blanks, scalars and signs outside of brackets. Between two lines only the columns of the
lists and maps around matter (`scanFrom`): a place where a key may have begun on an earlier line is forgotten
(`tokensFrom_staleKey`), and what is indented less ends the lists and maps that stand further right.
-/

namespace LayerLint.Yaml

/-! ## Places -/

namespace Position

variable {p : Position} {c : Char}

theorem after_append (p : Position) (a b : List Char) : p.after (a ++ b) = (p.after a).after b := List.foldl_append

theorem after_cons (p : Position) (c : Char) (s : List Char) : p.after (c :: s) = (p.next c).after s := rfl

theorem after_nil (p : Position) : p.after [] = p := rfl

theorem next_of_isBreak (h : isBreak c) : p.next c = ⟨p.index + 1, p.line + 1, 0⟩ := by simp [next, h]

theorem next_of_inline (h : isBreak c = false) (hmark : c ≠ '\ufeff') :
    p.next c = ⟨p.index + 1, p.line, p.column + 1⟩ := by
  simp [next, h, hmark]

theorem after_inline (p : Position) {s : List Char} (h : ∀ c ∈ s, isBreak c = false ∧ c ≠ '\ufeff') :
    p.after s = ⟨p.index + s.length, p.line, p.column + s.length⟩ := by
  induction s generalizing p with
  | nil => rfl
  | cons c r ih =>
    obtain ⟨hb, hm⟩ := h c (.head _)
    rw [after_cons, next_of_inline hb hm, ih _ fun d hd => h d (.tail _ hd)]
    simp only [List.length_cons, Position.mk.injEq, true_and]
    omega

theorem after_spaces (p : Position) (n : Nat) : p.after (spaces n) = ⟨p.index + n, p.line, p.column + n⟩ := by
  have h : ∀ c ∈ spaces n, isBreak c = false ∧ c ≠ '\ufeff' := fun c hc => List.eq_of_mem_replicate hc ▸ by decide
  rw [after_inline p h, length_spaces]

theorem le_line_after (p : Position) (s : List Char) : p.line ≤ (p.after s).line := by
  induction s generalizing p with
  | nil => exact Nat.le_refl _
  | cons c r ih =>
    refine Nat.le_trans ?_ (ih (p.next c))
    simp only [next]
    split <;> simp

theorem line_after_feed (p : Position) (s : List Char) : p.line < (p.after (s ++ ['\n'])).line := by
  rw [after_append]
  exact Nat.lt_succ_of_le (le_line_after p s)

theorem column_after_feed (p : Position) (s : List Char) : (p.after (s ++ ['\n'])).column = 0 := by
  rw [after_append]
  rfl

end Position

namespace Scanner

variable {p : Position} {indents : List Nat} {possible : Option PossibleKey} {allows : Bool} {before : List Token}
  {c : Char} {r rest : List Char}

/-! ## Blanks -/

/-- Characters that are already read. -/
theorem tokensFrom_skip (s : Scanner) (a rest : List Char) :
    tokensFrom a.length s (a ++ rest) = tokensFrom 0 { s with position := s.position.after a } rest := by
  induction a generalizing s with
  | nil => rfl
  | cons c a ih => rw [List.length_cons, List.cons_append, tokensFrom, ih]; rfl

/-- Spaces and line feeds behind the end of a line. -/
theorem tokensFrom_blanks {blanks : List Char} (h : ∀ c ∈ blanks, c = ' ' ∨ c = '\n') (rest : List Char) :
    tokensFrom 0 ⟨p, indents, possible, [], true, before⟩ (blanks ++ rest) =
      tokensFrom 0 ⟨p.after blanks, indents, possible, [], true, before⟩ rest := by
  induction blanks generalizing p with
  | nil => rfl
  | cons c a ih =>
    have hc : c = ' ' ∨ isBreak c ∨ (c = '\ufeff' ∧ p.index = 0) := by
      rcases h c (.head _) with rfl | rfl
      · exact .inl rfl
      · exact .inr (.inl (by decide))
    rw [List.cons_append, tokensFrom, if_pos hc, pass, Bool.true_or, ih fun d hd => h d (.tail _ hd)]
    rfl

theorem tokensFrom_feed (rest : List Char) :
    tokensFrom 0 ⟨p, indents, possible, [], allows, before⟩ ('\n' :: rest) =
      tokensFrom 0 ⟨p.next '\n', indents, possible, [], true, before⟩ rest := by
  rw [tokensFrom, if_pos (.inr (.inl (by decide))), pass]
  cases allows <;> rfl

theorem tokensFrom_space (rest : List Char) :
    tokensFrom 0 ⟨p, indents, possible, [], allows, before⟩ (' ' :: rest) =
      tokensFrom 0 ⟨p.next ' ', indents, possible, [], allows, before⟩ rest := by
  rw [tokensFrom, if_pos (.inl rfl), pass]
  cases allows <;> rfl

/-! ## Keys whose colon can no longer come -/

theorem dropStale_staleKey {key : PossibleKey} (hrequired : key.required = false) (hline : key.position.line < p.line)
    (outer : List (Option PossibleKey)) :
    dropStale ⟨p, indents, some key, outer, allows, before⟩ = dropStale ⟨p, indents, none, outer, allows, before⟩ := by
  have hne : (key.position.line != p.line) = true := by simp; omega
  simp [dropStale, isStale, hrequired, hne, Option.filter]

/-- A place on an earlier line where a key may have begun is forgotten. -/
theorem tokensFrom_staleKey {key : PossibleKey} (hrequired : key.required = false) (hline : key.position.line < p.line)
    (outer : List (Option PossibleKey)) (skip : Nat) (rest : List Char) :
    tokensFrom skip ⟨p, indents, some key, outer, allows, before⟩ rest =
      tokensFrom skip ⟨p, indents, none, outer, allows, before⟩ rest := by
  induction rest generalizing p skip allows with
  | nil =>
    cases skip <;> simp only [tokensFrom, finish, bind, Except.bind, dropStale_staleKey hrequired hline]
  | cons c r ih =>
    have hnext : key.position.line < (p.next c).line := Nat.lt_of_lt_of_le hline (Position.le_line_after p [c])
    cases skip with
    | succ skip => exact ih hnext skip
    | zero =>
      simp only [tokensFrom]
      split
      · exact ih hnext 0
      · split
        · exact ih hnext _
        · cases outer <;>
            simp [inFlow, close, dropStale_staleKey hrequired hline]

/-! ## Words -/

/-- The character begins a token. -/
def beginsToken (c : Char) : Bool := c != ' ' && !isBreak c && c != '\ufeff' && c != '#'

/-- The place lies inside of the innermost list or map. -/
def Fits (indents : List Nat) (column : Nat) : Prop := ∀ i ∈ indents.head?, i ≤ column

theorem close_of_fits {column : Nat} (h : Fits indents column) (s : Scanner) (hs : s.indents = indents) :
    s.close (column < ·) = s := by
  subst hs
  cases hi : s.indents with
  | nil => simp [close, hi]; rw [← hi]
  | cons i rest =>
    have : ¬ column < i := by have := h i (by simp [hi]); omega
    simp [close, hi, this]
    rw [← hi]

/-- The step for a character that begins a token, and for the further characters of the token. -/
theorem tokensFrom_word {s next : Scanner} {w : List Char} (houter : s.outer = []) (hdrop : s.dropStale = .ok s)
    (hfits : Fits s.indents s.position.column) (hc : beginsToken c)
    (hstep : s.step c (w ++ rest) = .ok (next, w.length + 1)) :
    tokensFrom 0 s (c :: w ++ rest) = tokensFrom 0 { next with position := s.position.after (c :: w) } rest := by
  simp only [beginsToken, Bool.and_eq_true, bne_iff_ne, ne_eq, Bool.not_eq_true'] at hc
  obtain ⟨⟨⟨hspace, hbreak⟩, hmark⟩, hcomment⟩ := hc
  rw [List.cons_append, tokensFrom, if_neg (by simp [hspace, hbreak, hmark]), if_neg hcomment]
  simp only [inFlow, houter, List.isEmpty_nil, Bool.not_true, Bool.false_eq_true, if_false,
    close_of_fits hfits s rfl, hdrop, Except.bind, hstep, Nat.add_sub_cancel]
  exact tokensFrom_skip _ w rest

/-- The tokens of a text outside of brackets, where no key has begun. -/
def scanFrom (p : Position) (indents : List Nat) (allows : Bool) (before : List Token) (s : List Char) : List Token :=
  tokensFrom 0 ⟨p, indents, none, [], allows, before⟩ s

theorem dropStale_none :
    dropStale ⟨p, indents, none, [], allows, before⟩ = .ok ⟨p, indents, none, [], allows, before⟩ := by
  simp [dropStale]

theorem scan_word {next : Scanner} {w : List Char} (hfits : Fits indents p.column) (hc : beginsToken c)
    (hstep : step ⟨p, indents, none, [], allows, before⟩ c (w ++ rest) = .ok (next, w.length + 1)) :
    scanFrom p indents allows before (c :: w ++ rest) = tokensFrom 0 { next with position := p.after (c :: w) } rest :=
  tokensFrom_word rfl dropStale_none hfits hc hstep

theorem scan_character (next : Scanner) (hfits : Fits indents p.column) (hc : beginsToken c)
    (hstep : step ⟨p, indents, none, [], allows, before⟩ c rest = .ok (next, 1)) :
    scanFrom p indents allows before (c :: rest) = tokensFrom 0 { next with position := p.next c } rest :=
  scan_word (w := []) hfits hc hstep

/-! ## Signs of structure -/

/-- A list or map that begins at a column, unless one has begun there. -/
theorem openAt_of_deeper {s : Scanner} {column : Nat} (h : s.isDeeper column) (token : Token) :
    s.openAt column token = { s with indents := column :: s.indents, tokens := token :: s.tokens } := if_pos h

theorem openAt_of_begun {s : Scanner} {i : Nat} {indents : List Nat} (h : s.indents = i :: indents) (token : Token) :
    s.openAt i token = s := if_neg (by simp [isDeeper, h])

theorem openSign_eq {s : Scanner} (houter : s.outer = []) (hpossible : s.possible = none) (hallows : s.allowsKey = true)
    (token opening : Token) :
    s.openSign token opening true = .ok ((s.openAt s.position.column opening).add token) := by
  have hkept : (s.openAt s.position.column opening).possible = none ∧
      (s.openAt s.position.column opening).allowsKey = true := by
    rw [openAt]
    split <;> exact ⟨hpossible, hallows⟩
  simp only [openSign, inFlow, houter, List.isEmpty_nil, Bool.not_true, hallows, Bool.or_true, require, if_true, bind,
    Except.bind, Bool.false_eq_true, if_false, dropKey, hkept, pure, Except.pure, allowKey, add, Option.any_none]

theorem boundaryAhead_sign (c : Char) (h : separatorAhead r) : boundaryAhead (c :: r) = false := by
  cases r with
  | nil => simp [boundaryAhead]
  | cons d r =>
    have hd : isSeparator d := by simpa [separatorAhead] using h
    have hne : d ≠ '-' ∧ d ≠ '.' := ⟨(by rintro rfl; exact absurd hd (by decide)),
      (by rintro rfl; exact absurd hd (by decide))⟩
    simp [boundaryAhead, hne]

theorem step_item {s : Scanner} (hr : separatorAhead r) :
    s.step '-' r = (s.openSign .item .listStart true).map (·, 1) := by
  unfold step
  simp [boundaryAhead_sign '-' hr, hr, bind, Except.bind, pure, Except.pure, Except.map]

theorem step_keySign {s : Scanner} (houter : s.outer = []) (hr : separatorAhead r) :
    s.step '?' r = (s.openSign .key .mapStart true).map (·, 1) := by
  unfold step
  simp [boundaryAhead_sign '?' hr, hr, inFlow, houter, bind, Except.bind, pure, Except.pure]
  cases s.openSign .key .mapStart true <;> rfl

theorem step_valueSign {s : Scanner} (hr : separatorAhead r) : s.step ':' r = s.valueSign.map (·, 1) := by
  unfold step
  simp [boundaryAhead_sign ':' hr, hr, bind, Except.bind, pure, Except.pure]
  cases s.valueSign <;> rfl

/-- The sign for an item or a key in a list or map that has begun at its column. -/
theorem scan_openSign {i : Nat} {token opening : Token} (hcolumn : p.column = i) (hc : beginsToken c)
    (hstep : ∀ s : Scanner, s.outer = [] → s.step c r = (s.openSign token opening true).map (·, 1)) :
    scanFrom p (i :: indents) true before (c :: r) = scanFrom (p.next c) (i :: indents) true (token :: before) r := by
  subst hcolumn
  refine scan_character ⟨p, p.column :: indents, none, [], true, token :: before⟩ (by simp [Fits]) hc ?_
  rw [hstep _ rfl, openSign_eq rfl rfl rfl, openAt_of_begun rfl]
  rfl

/-- The sign for an item or a key that stands further right begins a list or map. -/
theorem scan_opening {token opening : Token} (hdeeper : ∀ i ∈ indents.head?, i < p.column) (hc : beginsToken c)
    (hstep : ∀ s : Scanner, s.outer = [] → s.step c r = (s.openSign token opening true).map (·, 1)) :
    scanFrom p indents true before (c :: r) = scanFrom p (p.column :: indents) true (opening :: before) (c :: r) := by
  rw [scan_openSign rfl hc hstep]
  refine scan_character ⟨p, p.column :: indents, none, [], true, token :: opening :: before⟩
    (fun i hi => Nat.le_of_lt (hdeeper i hi)) hc ?_
  have hopen : isDeeper ⟨p, indents, none, [], true, before⟩ p.column := by
    cases indents with
    | nil => rfl
    | cons i rest => simpa [isDeeper] using hdeeper i (by simp)
  rw [hstep _ rfl, openSign_eq rfl rfl rfl, openAt_of_deeper hopen]
  rfl

/-- The colon of an entry whose key does not stand on one line. -/
theorem scan_valueSign {i : Nat} (hcolumn : p.column = i) (hr : separatorAhead r) :
    scanFrom p (i :: indents) true before (':' :: r) =
      scanFrom (p.next ':') (i :: indents) true (.value :: before) r := by
  subst hcolumn
  refine scan_character ⟨p, p.column :: indents, none, [], true, .value :: before⟩ (by simp [Fits]) (by decide) ?_
  have hopen := openSign_eq (s := ⟨p, p.column :: indents, none, [], true, before⟩) rfl rfl rfl .value .mapStart
  rw [step_valueSign hr, valueSign]
  simp only [inFlow, List.isEmpty_nil, Bool.not_true, Bool.not_false]
  rw [hopen, openAt_of_begun rfl]
  rfl

/-! ## Ends of lists and maps -/

/-- What follows ends the lists and maps at the columns from a limit on. -/
def Closes (limit : Nat) (rest : List Char) : Prop :=
  ∀ (q : Position) (j : Nat) (indents : List Nat) (before : List Token), q.column = 0 → limit ≤ j →
    scanFrom q (j :: indents) true before rest = scanFrom q indents true (.blockEnd :: before) rest

theorem scan_spaces (n : Nat) (rest : List Char) :
    scanFrom p indents true before (spaces n ++ rest) = scanFrom (p.after (spaces n)) indents true before rest :=
  tokensFrom_blanks (fun _ hc => .inl (List.eq_of_mem_replicate hc)) rest

theorem map_blockEnd (indents : List Nat) (before : List Token) :
    indents.map (fun _ => Token.blockEnd) ++ .blockEnd :: before =
      .blockEnd :: (indents.map (fun _ => Token.blockEnd) ++ before) := by
  induction indents with
  | nil => rfl
  | cons i rest ih => rw [List.map_cons, List.cons_append, List.cons_append, ih]

theorem close_cons (ends : Nat → Bool) {j : Nat} (h : ends j) :
    close ⟨p, j :: indents, possible, [], allows, before⟩ ends =
      close ⟨p, indents, possible, [], allows, .blockEnd :: before⟩ ends := by
  simp only [close, List.takeWhile_cons_of_pos h, List.dropWhile_cons_of_pos h, map_blockEnd, List.map_cons,
    List.cons_append]

/-- A token on a line that is indented less ends lists and maps. -/
theorem closes_of_token {limit n : Nat} (hn : n < limit) (hc : beginsToken c) (r : List Char) :
    Closes limit (spaces n ++ c :: r) := by
  intro q j indents before hcolumn hj
  have hends : decide ((q.after (spaces n)).column < j) = true := by
    rw [Position.after_spaces, hcolumn]
    simp
    omega
  simp only [beginsToken, Bool.and_eq_true, bne_iff_ne, ne_eq, Bool.not_eq_true'] at hc
  obtain ⟨⟨⟨hspace, hbreak⟩, hmark⟩, hcomment⟩ := hc
  have hblank : ¬ (c = ' ' ∨ isBreak c = true ∨ (c = '\ufeff' ∧ (q.after (spaces n)).index = 0)) := by
    simp [hspace, hbreak, hmark]
  rw [scan_spaces, scan_spaces, scanFrom, scanFrom, tokensFrom, tokensFrom, if_neg hblank, if_neg hblank,
    if_neg hcomment, if_neg hcomment]
  simp only [inFlow, List.isEmpty_nil, Bool.not_true, Bool.false_eq_true, if_false,
    close_cons (fun i => decide ((q.after (spaces n)).column < i)) hends]

/-! ## Scalars -/

/-- The place as that of a possible key, if one may begin here. -/
def keyHere (p : Position) (indents : List Nat) (allows : Bool) (before : List Token) : Option PossibleKey :=
  if allows then some ⟨before.length, indents.head? == some p.column, p⟩ else none

theorem addWord_eq (token : Token) :
    addWord ⟨p, indents, none, [], allows, before⟩ token =
      .ok ⟨p, indents, keyHere p indents allows before, [], false, token :: before⟩ := by
  cases allows <;> simp [addWord, noteKey, dropKey, inFlow, keyHere, bind, Except.bind, pure, Except.pure, allowKey,
    add]

theorem step_quoted {text : List Char} {n : Nat} (hc : c = '\'' ∨ c = '"')
    (hread : quotedFrom c 0 .none r = .ok (text, n)) :
    step ⟨p, indents, none, [], allows, before⟩ c r =
      .ok (⟨p, indents, keyHere p indents allows before, [], false, .scalar false (String.ofList text) :: before⟩,
        n + 1) := by
  have hboundary : boundaryAhead (c :: r) = false := by obtain rfl | rfl := hc <;> simp [boundaryAhead]
  unfold step
  obtain rfl | rfl := hc <;>
    simp [hboundary, hread, addWord_eq, bind, Except.bind, pure, Except.pure]

theorem step_block {text : List Char} {i n : Nat} (hread : blockScalar false (i + 1) r = .ok (text, n)) :
    step ⟨p, i :: indents, none, [], allows, before⟩ '|' r =
      .ok (⟨p, i :: indents, none, [], true, .scalar false (String.ofList text) :: before⟩, n + 1) := by
  have hboundary : boundaryAhead ('|' :: r) = false := by simp [boundaryAhead]
  unfold step
  simp [hboundary, inFlow, dropKey, allowKey, add, innerIndent, hread, bind, Except.bind, pure, Except.pure]

theorem step_plain {text : List Char} {indent n : Nat} {ends : Bool} (hlead : leadIndicators.contains c = false)
    (hseparator : isSeparator c = false) (hsign : c = '-' ∨ c = '?' ∨ c = ':' → separatorAhead r = false)
    (hboundary : p.column = 0 → boundaryAhead (c :: r) = false)
    (hindent : innerIndent ⟨p, indents, none, [], allows, before⟩ = indent)
    (hread : plainFrom false indent .none (c :: r) = (text, n, ends)) :
    step ⟨p, indents, none, [], allows, before⟩ c r =
      .ok (⟨p, indents, keyHere p indents allows before, [], ends, .scalar true (String.ofList text) :: before⟩,
        n) := by
  subst hindent
  have hne : ∀ d ∈ leadIndicators, c ≠ d := by
    rintro d hd rfl
    simp [hd] at hlead
  have hbegins : beginsPlain false c r := by
    by_cases hc : c = '-' ∨ c = '?' ∨ c = ':'
    · rw [beginsPlain, hsign hc]
      obtain rfl | rfl | rfl := hc <;> decide
    · have hsigns : signs.contains c = false := by
        rw [Bool.eq_false_iff]
        intro h
        have hsplit : ∀ d ∈ signs, d = '-' ∨ d = '?' ∨ d = ':' ∨ d ∈ leadIndicators :=
          List.all_iff_forall_prop.mp (by decide)
        rcases hsplit c (by simpa using h) with h | h | h | h
        · exact hc (.inl h)
        · exact hc (.inr (.inl h))
        · exact hc (.inr (.inr h))
        · exact hne c h rfl
      rw [beginsPlain, hseparator, hsigns]
      rfl
  have hsign' : ∀ d, d = '-' ∨ d = '?' ∨ d = ':' → ¬ (c = d ∧ separatorAhead r = true) := by
    rintro d hd ⟨rfl, h⟩
    simp [hsign hd] at h
  have hboundary' : ¬ (p.column = 0 ∧ boundaryAhead (c :: r) = true) := fun h => by simp [hboundary h.1] at h
  unfold step
  simp only [hne '%' (by decide), hboundary', hne '[' (by decide), hne '\x7b' (by decide), hne ']' (by decide),
    hne '\x7d' (by decide), hne ',' (by decide), hsign' '-' (by decide), hne '*' (by decide), hne '&' (by decide),
    hne '!' (by decide), hne '|' (by decide), hne '>' (by decide), hne '\'' (by decide), hne '"' (by decide), inFlow,
    List.isEmpty_nil, Bool.not_true, Bool.false_eq_true, false_or, hsign' '?' (by decide), hsign' ':' (by decide),
      hbegins,
    and_false, false_and, if_false, if_true, or_self, hread, addWord_eq, bind, Except.bind, pure, Except.pure, allowKey]

/-- Behind the end of its line a word can no longer become a key. -/
theorem tokensFrom_keyHere {q : Position} {i : Nat} {allows' : Bool} {toks : List Token} (hcolumn : i < p.column)
    (hline : p.line < q.line) (rest : List Char) :
    tokensFrom 0 ⟨q, i :: indents, keyHere p (i :: indents) allows before, [], allows', toks⟩ rest =
      scanFrom q (i :: indents) allows' toks rest := by
  cases allows with
  | false => rfl
  | true =>
    have hrequired : ((i :: indents).head? == some p.column) = false := by simp; omega
    exact tokensFrom_staleKey hrequired hline [] 0 rest

/-! ## Empty lists and maps -/

theorem step_openFlow {opening closing : Char} {first last : Token}
    (h : (opening, closing, first, last) ∈
      [('[', ']', Token.flowListStart, Token.flowListEnd), ('\x7b', '\x7d', .flowMapStart, .flowMapEnd)]) :
    step ⟨p, indents, none, [], allows, before⟩ opening r =
      .ok (⟨p, indents, none, [keyHere p indents allows before], true, first :: before⟩, 1) := by
  unfold step
  simp only [List.mem_cons, Prod.mk.injEq, List.not_mem_nil, or_false] at h
  obtain ⟨rfl, -, rfl, -⟩ | ⟨rfl, -, rfl, -⟩ := h <;> cases allows <;>
    simp [boundaryAhead, openFlow, noteKey, dropKey, inFlow, keyHere, allowKey, add, bind, Except.bind, pure,
      Except.pure]

theorem step_closeFlow {opening closing : Char} {first last : Token} {key : Option PossibleKey}
    (h : (opening, closing, first, last) ∈
      [('[', ']', Token.flowListStart, Token.flowListEnd), ('\x7b', '\x7d', .flowMapStart, .flowMapEnd)]) :
    step ⟨p, indents, none, [key], true, before⟩ closing r =
      .ok (⟨p, indents, key, [], false, last :: before⟩, 1) := by
  unfold step
  simp only [List.mem_cons, Prod.mk.injEq, List.not_mem_nil, or_false] at h
  obtain ⟨-, rfl, -, rfl⟩ | ⟨-, rfl, -, rfl⟩ := h <;>
    simp [boundaryAhead, closeFlow, dropKey, allowKey, add, bind, Except.bind, pure, Except.pure]

/-- Two brackets with the end of their line. -/
theorem scan_brackets {i : Nat} {opening closing : Char} {first last : Token} (hcolumn : i < p.column)
    (h : (opening, closing, first, last) ∈
      [('[', ']', Token.flowListStart, Token.flowListEnd), ('\x7b', '\x7d', .flowMapStart, .flowMapEnd)])
    (rest : List Char) :
    scanFrom p (i :: indents) allows before (opening :: closing :: '\n' :: rest) =
      scanFrom (p.after [opening, closing, '\n']) (i :: indents) true (last :: first :: before) rest := by
  have hopening : beginsToken opening ∧ isBreak opening = false ∧ opening ≠ '\ufeff' := by
    simp only [List.mem_cons, Prod.mk.injEq, List.not_mem_nil, or_false] at h
    obtain ⟨rfl, -⟩ | ⟨rfl, -⟩ := h <;> decide
  have hclosing : closing ≠ ' ' ∧ isBreak closing = false ∧ closing ≠ '\ufeff' ∧ closing ≠ '#' := by
    simp only [List.mem_cons, Prod.mk.injEq, List.not_mem_nil, or_false] at h
    obtain ⟨-, rfl, -⟩ | ⟨-, rfl, -⟩ := h <;> decide
  have hfits : Fits (i :: indents) p.column := by simp [Fits]; omega
  have hdrop : dropStale ⟨p.next opening, i :: indents, none, [keyHere p (i :: indents) allows before], true,
      first :: before⟩ = .ok ⟨p.next opening, i :: indents, none, [keyHere p (i :: indents) allows before], true,
        first :: before⟩ := by
    rw [Position.next_of_inline hopening.2.1 hopening.2.2]
    cases allows <;> simp [dropStale, keyHere, isStale, Option.filter]
  have hline : p.line < (p.after [opening, closing, '\n']).line := Position.line_after_feed p [opening, closing]
  have hend : tokensFrom 0 ⟨p.after [opening, closing, '\n'], i :: indents, keyHere p (i :: indents) allows before, [],
      true, last :: first :: before⟩ rest = _ := tokensFrom_keyHere hcolumn hline rest
  rw [← hend]
  refine (scan_word (w := []) hfits hopening.1 (step_openFlow h)).trans ?_
  rw [Position.after_cons, Position.after_nil, tokensFrom, if_neg (by simp [hclosing]), if_neg hclosing.2.2.2]
  simp only [inFlow, List.isEmpty_cons, Bool.not_false, if_true, hdrop, Except.bind,
    step_closeFlow h]
  exact tokensFrom_feed rest

end Scanner

end LayerLint.Yaml
