import LayerLint.Proofs.Yaml.ReadBack.Nodes

/-!
# Documents read back

The text of a map without names, with remarks before and behind it, is read as the map again, with marks
(`document?_render`). Remarks are lines that are empty or comments.
-/

namespace LayerLint.Yaml

open Scanner

variable {ι : Type}

/-! ## Characters -/

section Characters

variable {place : Place}

theorem isWritten_spaces (n : Nat) : (spaces n).all isWritten :=
  List.all_eq_true.mpr fun _ hc => List.eq_of_mem_replicate hc ▸ by decide

theorem isWritten_gap (place : Place) : place.gap.all isWritten := by
  rw [Place.gap]
  split <;> decide

theorem isWritten_opening (place : Place) (n : Nat) : (place.opening n).all isWritten := by
  rw [Place.opening]
  split
  · exact isWritten_gap place
  · rw [List.all_cons, isWritten_spaces]
    decide

theorem isWritten_joinIndented {indent : Nat} {pieces : List (List Char)} (h : ∀ piece ∈ pieces, piece.all isWritten) :
    (joinIndented indent pieces).all isWritten := by
  induction pieces with
  | nil => rfl
  | cons piece pieces ih =>
    rw [joinIndented_cons, List.all_append, h piece (.head _)]
    split
    · rfl
    · rw [List.all_append, isWritten_spaces, ih fun p hp => h p (.tail _ hp)]
      rfl

theorem isWritten_shown {tag : Tag} {s : List Char} {f : Folding} {column : Nat} {onOneLine : Bool} :
    ((Style.choose tag s onOneLine).shown f column s).all isWritten :=
  List.all_eq_true.mpr fun _ hc => (mem_shown hc).1

theorem isWritten_keyText {key : Node ι} {indent : Nat} (h : key.LegibleKey indent) (hsimple : isSimpleKey key)
    (column : Nat) : (keyText column key).all isWritten := by
  cases key with
  | scalar mark anchor tag text =>
    obtain ⟨rfl, h⟩ := h
    rw [if_pos hsimple] at h
    rw [keyText, scalarText_eq h.1.hidden, List.all_append, isWritten_gap, isWritten_shown]
    rfl
  | «alias» name => exact h.elim
  | list mark anchor tag items => exact h.elim
  | map mark anchor tag entries => exact h.elim

theorem isWritten_scalarNode {mark : ι} {tag : Tag} {text : String}
    (hidden : hidesTag tag text.toList (Style.choose tag text.toList false)) :
    (nodeText place (.scalar mark none tag text)).all isWritten := by
  rw [nodeText_scalar hidden, scalarLine, List.all_append, List.all_append, isWritten_gap, isWritten_shown]
  split <;> decide

mutual

/-- A node is written in characters that a document may hold and a file gives back. -/
theorem isWritten_nodeText {indent : Nat} {inValue : Bool} :
    ∀ (node : Node ι) (place : Place), node.Legible indent inValue → (nodeText place node).all isWritten
  | .alias _, _, h => h.elim
  | .scalar mark anchor tag text, place, h => by
    obtain ⟨rfl, h⟩ := h
    exact isWritten_scalarNode h.hidden
  | .list mark anchor tag [], place, h => by
    obtain ⟨rfl, rfl, -⟩ := h
    rw [nodeText_emptyList, List.all_append, isWritten_gap]
    decide
  | .list mark anchor tag (item :: items), place, h => by
    obtain ⟨rfl, rfl, hitems⟩ := h
    rw [nodeText_list (by simp), List.all_append, isWritten_opening,
      isWritten_joinIndented (isWritten_itemTexts (item :: items) place.ofList hitems)]
    rfl
  | .map mark anchor tag [], place, h => by
    obtain ⟨rfl, rfl, -⟩ := h
    rw [nodeText_emptyMap, List.all_append, isWritten_gap]
    decide
  | .map mark anchor tag (entry :: entries), place, h => by
    obtain ⟨rfl, rfl, hentries⟩ := h
    rw [nodeText_map (by simp), List.all_append, isWritten_opening,
      isWritten_joinIndented (isWritten_entryTexts (entry :: entries) (place.inner 0) hentries)]
    rfl

theorem isWritten_itemTexts {indent : Nat} : ∀ (items : List (Node ι)) (column : Nat), LegibleItems indent items →
    ∀ piece ∈ itemTexts column items, piece.all isWritten
  | [], _, _ => by simp [itemTexts]
  | item :: items, column, h => by
    rw [itemTexts, List.forall_mem_cons, List.all_cons, isWritten_nodeText item (.item column) h.1]
    exact ⟨by decide, isWritten_itemTexts items column h.2⟩

theorem isWritten_entryTexts {indent : Nat} : ∀ (entries : List (Node ι × Node ι)) (column : Nat),
    LegibleEntries indent entries → ∀ piece ∈ entryTexts column entries, piece.all isWritten
  | [], _, _ => by simp [entryTexts]
  | (key, value) :: entries, column, h => by
    rw [entryTexts_cons, List.forall_mem_cons]
    refine ⟨?_, isWritten_entryTexts entries column h.2.2⟩
    rw [entryText]
    have hvalue := fun place => isWritten_nodeText value place h.2.1
    split
    · rename_i hsimple
      rw [List.all_append, isWritten_keyText h.1 hsimple, List.all_cons, hvalue]
      decide
    · rename_i hsimple
      obtain ⟨hpart, -, mark, tag, text, rfl⟩ := legibleKey_part h.1 (by simpa using hsimple)
      simp [isWritten_scalarNode hpart.2.hidden, hvalue, isWritten_spaces]
      decide

end

end Characters

/-! ## Remarks -/

/-- A line that says nothing: it is empty or a comment. -/
def isRemark (line : String) : Bool :=
  line.toList.all (fun c => isWritten c && !isBreak c && c != '\ufeff') && line.toList.head?.all (· == '#')

/-- The text of lines. -/
def remarksText (lines : List String) : List Char := lines.flatMap fun line => line.toList ++ ['\n']

theorem isWritten_remarks {lines : List String} (h : ∀ line ∈ lines, isRemark line) :
    (remarksText lines).all isWritten := by
  rw [remarksText, List.all_flatMap, List.all_eq_true]
  intro line hline
  have := h line hline
  simp only [isRemark, Bool.and_eq_true, List.all_eq_true] at this
  simp only [List.all_append, Bool.and_eq_true, List.all_eq_true]
  exact ⟨fun c hc => (this.1 c hc).1.1, List.all_eq_true.mp (by decide)⟩

section Remarks

variable {p : Position} {indents : List Nat} {before : List Token} {rest : List Char}

theorem scan_remark {line : String} (h : isRemark line) :
    scanFrom p indents true before (line.toList ++ '\n' :: rest) =
      scanFrom (p.after (line.toList ++ ['\n'])) indents true before rest := by
  obtain ⟨hinline, hhead⟩ : line.toList.all (fun c => isWritten c && !isBreak c && c != '\ufeff') ∧
      line.toList.head?.all (· == '#') := by simpa only [isRemark, Bool.and_eq_true] using h
  cases hline : line.toList with
  | nil => exact tokensFrom_feed rest
  | cons c r =>
    rw [hline] at hinline hhead
    obtain rfl : c = '#' := by simpa using hhead
    have hlength : commentLength (r ++ '\n' :: rest) = r.length := by
      have hr : ∀ d ∈ r, (!isBreak d) = true := fun d hd => by
        have := List.all_eq_true.mp hinline d (.tail _ hd)
        simp only [Bool.and_eq_true] at this
        exact this.1.2
      rw [commentLength, List.takeWhile_append_of_pos hr, List.takeWhile_cons_of_neg (by decide), List.append_nil]
    rw [scanFrom, List.cons_append, tokensFrom, if_neg (by simp [isBreak]), if_pos rfl, hlength, Scanner.pass,
      Bool.true_or, tokensFrom_skip, Position.after_append]
    exact tokensFrom_feed rest

/-- Remarks are no tokens. -/
theorem scan_remarks (p : Position) (indents : List Nat) (before : List Token) {lines : List String}
    (h : ∀ line ∈ lines, isRemark line) :
    scanFrom p indents true before (remarksText lines ++ rest) =
      scanFrom (p.after (remarksText lines)) indents true before rest := by
  induction lines generalizing p with
  | nil => rfl
  | cons line lines ih =>
    have htext : remarksText (line :: lines) = line.toList ++ ['\n'] ++ remarksText lines := rfl
    rw [htext, List.append_assoc, List.append_assoc, List.singleton_append, scan_remark (h line (.head _)),
      ih _ fun l hl => h l (.tail _ hl), ← Position.after_append]

theorem column_after_remarks (lines : List String) (hp : p.column = 0) : (p.after (remarksText lines)).column = 0 := by
  induction lines generalizing p with
  | nil => exact hp
  | cons line lines ih =>
    have htext : remarksText (line :: lines) = line.toList ++ ['\n'] ++ remarksText lines := rfl
    rw [htext, Position.after_append]
    exact ih (Position.column_after_feed p _)

theorem close_all (s : Scanner) : s.close (fun _ => true) =
    { s with indents := [], tokens := s.indents.map (fun _ => Token.blockEnd) ++ s.tokens } := by
  have htake : s.indents.takeWhile (fun _ => true) = s.indents := by
    induction s.indents <;> simp_all
  have hdrop : s.indents.dropWhile (fun _ => true) = [] := by
    induction s.indents <;> simp_all
  rw [close, htake, hdrop]

/-- To end some of the lists and maps and then the others is to end all. -/
theorem blockEnds_append (ends : Nat → Bool) :
    (indents.dropWhile ends).map (fun _ => Token.blockEnd) ++
      ((indents.takeWhile ends).map (fun _ => Token.blockEnd) ++ before) =
        indents.map (fun _ => Token.blockEnd) ++ before := by
  rw [← List.append_assoc]
  simp only [List.map_const', List.replicate_append_replicate]
  rw [Nat.add_comm, ← List.length_append, List.takeWhile_append_dropWhile]

/-- The end of a text ends all lists and maps. -/
theorem scan_nil : scanFrom p indents true before [] = (indents.map (fun _ => Token.blockEnd) ++ before).reverse := by
  simp [scanFrom, tokensFrom, finish, dropStale_none, dropKey, inFlow, close_all, bind, Except.bind, pure, Except.pure]

theorem step_documentEnd (hp : p.column = 0) :
    step ⟨p, indents, none, [], true, before⟩ '.' ('.' :: '.' :: '\n' :: rest) =
      .ok (⟨p, [], none, [], false, .documentEnd :: (indents.map (fun _ => Token.blockEnd) ++ before)⟩, 3) := by
  have hboundary : boundaryAhead ('.' :: '.' :: '.' :: '\n' :: rest) = true := by
    simp [boundaryAhead, separatorAhead, isSeparator, isBreak]
  unfold step
  simp [hp, hboundary, documentSign, close_all, dropKey, allowKey, add, bind, Except.bind, pure, Except.pure]

/-- The line of three points ends all lists and maps, and the document. -/
theorem scan_points (hp : p.column = 0) (rest : List Char) :
    scanFrom p indents true before ('.' :: '.' :: '.' :: '\n' :: rest) =
      scanFrom (p.after ['.', '.', '.', '\n']) [] true
        (.documentEnd :: (indents.map (fun _ => Token.blockEnd) ++ before)) rest := by
  have hblank : ¬ ('.' = ' ' ∨ isBreak '.' = true ∨ ('.' = '\ufeff' ∧ p.index = 0)) := by simp [isBreak]
  rw [scanFrom, tokensFrom, if_neg hblank, if_neg (by decide)]
  simp only [inFlow, List.isEmpty_nil, Bool.not_true, Bool.false_eq_true, if_false, close, dropStale_none, Except.bind,
    step_documentEnd hp, blockEnds_append]
  exact tokensFrom_feed rest

end Remarks

/-! ## Names -/

/-- The token is neither an anchor nor an alias. -/
def isNameless : Token → Bool
  | .anchor _ | .alias _ => false
  | _ => true

theorem checkNames_nameless {toks : List Token} (h : toks.all isNameless) (known : List String) :
    checkNames known toks = toks := by
  induction toks with
  | nil => rfl
  | cons token toks ih =>
    simp only [List.all_cons, Bool.and_eq_true] at h
    rw [checkNames.eq_def]
    split
    · simp_all
    · simp_all [isNameless]
    · simp_all [isNameless]
    · simp_all

mutual

theorem isNameless_nodeTokens {indent : Nat} {inValue : Bool} :
    ∀ node : Node ι, node.Legible indent inValue → (nodeTokens inValue node).all isNameless
  | .alias _, h => h.elim
  | .scalar mark anchor tag text, _ => by rw [nodeTokens]; rfl
  | .list mark anchor tag items, h => by
    have hitems := isNameless_itemTokens items h.2.2
    rw [nodeTokens]
    split
    · decide
    · split <;> simp [hitems, isNameless]
  | .map mark anchor tag entries, h => by
    have hentries := isNameless_entryTokens entries h.2.2
    rw [nodeTokens]
    split
    · decide
    · simp [hentries, isNameless]

theorem isNameless_itemTokens {indent : Nat} : ∀ items : List (Node ι), LegibleItems indent items →
    (itemTokens items).all isNameless
  | [], _ => by rw [itemTokens]; rfl
  | item :: items, h => by
    rw [itemTokens, List.all_cons, List.all_append, isNameless_nodeTokens item h.1, isNameless_itemTokens items h.2]
    rfl

theorem isNameless_entryTokens {indent : Nat} : ∀ entries : List (Node ι × Node ι), LegibleEntries indent entries →
    (entryTokens entries).all isNameless
  | [], _ => by rw [entryTokens]; rfl
  | (key, value) :: entries, h => by
    have hkey : (keyTokens key).all isNameless := by cases key <;> rfl
    rw [entryTokens, List.all_cons, List.all_append, hkey, List.all_cons, List.all_append,
      isNameless_nodeTokens value h.2.1, isNameless_entryTokens entries h.2.2]
    rfl

end

/-! ## Documents -/

/-- Lines that say nothing. -/
def IsRemarks (text : String) : Prop :=
  ∃ lines, text.toList = remarksText lines ∧ ∀ line ∈ lines, isRemark line

theorem isRemarks_join {lines : List String} (h : ∀ line ∈ lines, isRemark line) :
    IsRemarks (String.join (lines.map (· ++ "\n"))) := by
  refine ⟨lines, ?_, h⟩
  rw [String.toList_join, remarksText, List.flatMap_map]
  simp

theorem isRemarks_empty : IsRemarks "" := ⟨[], rfl, by simp⟩

section Documents

variable {mark : ι} {entries : List (Node ι × Node ι)}

theorem nodeText_top (hne : entries ≠ []) :
    nodeText .top (.map mark none .map entries) = joinIndented 0 (entryTexts 0 entries) := nodeText_map hne

/-- What stands behind a document leaves its entries as they are, ends them and adds some tokens at most. -/
structure Ending (endsOpen : Bool) (tail : List Char) (ends : List Token) : Prop where
  follows : Follows 0 endsOpen tail
  written : tail.all isWritten
  tokens : ∀ (q : Position) (before : List Token), q.column = 0 →
    scanFrom q [0] true before tail = before.reverse ++ .blockEnd :: ends

/-- Remarks begin with some empty lines. -/
theorem resumes_remarks {lines : List String} (h : ∀ line ∈ lines, isRemark line) :
    ∃ feeds, Resumes 1 feeds (remarksText lines) := by
  induction lines with
  | nil => exact ⟨0, 0, [], rfl, by omega, by simp⟩
  | cons line lines ih =>
    have htext : remarksText (line :: lines) = line.toList ++ '\n' :: remarksText lines := by
      simp [remarksText]
    rw [htext]
    cases hline : line.toList with
    | nil =>
      obtain ⟨feeds, n, r, hrest, hn, hr⟩ := ih fun l hl => h l (.tail _ hl)
      exact ⟨feeds + 1, n, r, by rw [hrest]; rfl, hn, hr⟩
    | cons c r =>
      have hremark := h line (.head _)
      rw [isRemark, hline, Bool.and_eq_true] at hremark
      obtain rfl : c = '#' := by simpa using hremark.2
      exact ⟨0, 0, _, rfl, by omega, by simp [isBreak]⟩

theorem closes_remarks {lines : List String} (h : ∀ line ∈ lines, isRemark line) (limit : Nat) :
    Closes limit (remarksText lines) := by
  intro q j indents before _ _
  rw [← List.append_nil (remarksText lines), scan_remarks _ _ _ h, scan_remarks _ _ _ h, scan_nil, scan_nil,
    map_blockEnd]
  rfl

theorem ending_remarks {text : String} (h : IsRemarks text) : Ending false text.toList [] := by
  obtain ⟨lines, htext, hlines⟩ := h
  obtain ⟨feeds, hresumes⟩ := resumes_remarks hlines
  rw [htext]
  refine ⟨⟨feeds, hresumes, closes_remarks hlines _, .inr rfl⟩, isWritten_remarks hlines, fun q before hq => ?_⟩
  rw [← List.append_nil (remarksText lines), scan_remarks _ _ _ hlines, scan_nil]
  simp

theorem ending_points {text : String} (h : IsRemarks text) (endsOpen : Bool) :
    Ending endsOpen ("...\n".toList ++ text.toList) [.documentEnd] := by
  obtain ⟨lines, htext, hlines⟩ := h
  rw [htext]
  refine ⟨.token (i := 0) (by decide) endsOpen _, ?_, fun q before hq => ?_⟩
  · rw [List.all_append, isWritten_remarks hlines]
    decide
  · refine (scan_points hq (remarksText lines)).trans ?_
    rw [← List.append_nil (remarksText lines), scan_remarks _ _ _ hlines, scan_nil]
    simp

theorem isWritten_document {header : String} {tail : List Char} (hne : entries ≠ []) (h : LegibleEntries 0 entries)
    (hheader : IsRemarks header) (htail : tail.all isWritten) :
    (header.toList ++ nodeText .top (.map mark none .map entries) ++ tail).all isWritten := by
  obtain ⟨lines, hlines, hremarks⟩ := hheader
  rw [nodeText_top hne, List.all_append, List.all_append, hlines, isWritten_remarks hremarks,
    isWritten_joinIndented (isWritten_entryTexts entries 0 h), htail]
  rfl

/-- **The tokens of a printed map**, with remarks before it. -/
theorem tokens_map {header : String} {tail : List Char} {ends : List Token} (hne : entries ≠ [])
    (h : LegibleEntries 0 entries) (hheader : IsRemarks header)
    (htail : Ending (endsOpen (.map mark none .map entries)) tail ends) (hends : ends.all isNameless) :
    tokens (header.toList ++ nodeText .top (.map mark none .map entries) ++ tail) =
      .mapStart :: (entryTokens entries ++ .blockEnd :: ends) := by
  have hprintable : (header.toList ++ nodeText .top (.map mark none .map entries) ++ tail).all isPrintable :=
    List.all_eq_true.mpr fun c hc =>
      isPrintable_of_isWritten (List.all_eq_true.mp (isWritten_document hne h hheader htail.written) c hc)
  obtain ⟨lines, hlines, hremarks⟩ := hheader
  have hcolumn : (Position.start.after header.toList).column = 0 := hlines ▸ column_after_remarks lines rfl
  have hscan : tokensFrom 0 .start (header.toList ++ nodeText .top (.map mark none .map entries) ++ tail) =
      .mapStart :: (entryTokens entries ++ .blockEnd :: ends) := by
    obtain ⟨⟨key, value⟩, others, rfl⟩ := List.exists_cons_of_ne_nil hne
    obtain ⟨hentries, hend⟩ := scan_entries [] [.mapStart] tail ((key, value) :: others) hne h hcolumn htail.follows
    have hopening := scan_openEntries [] [] others tail h.1 h.2.1 hcolumn (by simp)
    rw [nodeText_top hne, List.append_assoc, hlines]
    refine (scan_remarks .start [] [] hremarks).trans ?_
    rw [← hlines, hopening, hentries, htail.tokens _ _ hend]
    simp
  have hnameless : (Token.mapStart :: (entryTokens entries ++ .blockEnd :: ends)).all isNameless := by
    rw [List.all_cons, List.all_append, isNameless_entryTokens entries h, List.all_cons, hends]
    rfl
  rw [tokens, if_pos hprintable, hscan, checkNames_nameless hnameless]

theorem dropWhile_documentEnd {ends : List Token} (h : ends.all (· == .documentEnd)) :
    ends.dropWhile (· == .documentEnd) = [] := by
  induction ends with
  | nil => rfl
  | cons token ends ih =>
    rw [List.all_cons, Bool.and_eq_true] at h
    rw [List.dropWhile_cons, if_pos h.1, ih h.2]

/-- The document that tokens of a map describe. -/
theorem ofTokens?_map {ends : List Token} (hne : entries ≠ []) (h : LegibleEntries 0 entries)
    (hends : ends.all (· == .documentEnd)) :
    Node.ofTokens? (.mapStart :: (entryTokens entries ++ .blockEnd :: ends)) =
      .ok (some (marked false ends.length (.map mark none .map entries))) := by
  have htokens : nodeTokens false (.map mark none .map entries) =
      .mapStart :: (entryTokens entries ++ [.blockEnd]) := by
    simp [nodeTokens, hne]
  obtain ⟨fuel, hfuel, henough⟩ : ∃ fuel,
      Node.fuelFor (.mapStart :: (entryTokens entries ++ .blockEnd :: ends)) = fuel + 1 ∧
        4 * (entryTokens entries).length + 1 ≤ fuel := by
    refine ⟨4 * (entryTokens entries ++ .blockEnd :: ends).length + 11, by simp [Node.fuelFor]; omega, ?_⟩
    simp
    omega
  have hdrop := dropWhile_documentEnd hends
  have hentries := read_entries fuel Node.standardHandles ends entries h henough
  rw [Node.ofTokens?, if_neg (by decide), hfuel, read_map (by decide) hentries]
  simp only [bind, Except.bind, Node.readEnd, hdrop, marked, htokens]
  simp [Nat.add_assoc, Nat.add_comm, Nat.add_left_comm]

/-- **A printed map is read as the map again**, with remarks before and behind it. -/
theorem document?_render (mark : ι) {header remarks : String} (hne : entries ≠ []) (h : LegibleEntries 0 entries)
    (hheader : IsRemarks header) (hremarks : IsRemarks remarks) :
    (header ++ (Node.map mark none .map entries).render ++ remarks).toList.all isWritten ∧
      ∃ after, Node.document? (header ++ (Node.map mark none .map entries).render ++ remarks) =
        .ok (some (marked false after (.map mark none .map entries))) := by
  obtain ⟨tail, ends, htail, hends, htext⟩ : ∃ tail ends,
      Ending (endsOpen (.map mark none .map entries)) tail ends ∧ ends.all (· == .documentEnd) ∧
        (header ++ (Node.map mark none .map entries).render ++ remarks).toList =
          header.toList ++ nodeText .top (.map mark none .map entries) ++ tail := by
    cases hends : endsOpen (.map mark none .map entries) with
    | true =>
      refine ⟨_, _, ending_points hremarks true, by decide, ?_⟩
      simp [Node.render, isPlainScalar, hends]
    | false =>
      refine ⟨_, _, ending_remarks hremarks, rfl, ?_⟩
      simp [Node.render, isPlainScalar, hends]
  have hnameless : ends.all isNameless := List.all_eq_true.mpr fun token htoken => by
    rw [beq_iff_eq.mp (List.all_eq_true.mp hends token htoken)]
    rfl
  rw [htext]
  refine ⟨isWritten_document hne h hheader htail.written, ends.length, ?_⟩
  rw [Node.document?, htext, tokens_map hne h hheader htail hnameless, ofTokens?_map hne h hends]

end Documents

end LayerLint.Yaml
