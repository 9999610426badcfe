import LayerLint.Proofs.Yaml.ReadBack.Scalar

/-!
# The tokens of printed nodes

The text of a node without names is scanned as the tokens that one expects (`nodeTokens`): those of its scalars, with
the signs for items, keys and values and the beginnings and ends of lists and maps (`scan_node`, by recursion over
the node). A list that is the value of an entry has neither beginning nor end of its own.
-/

namespace LayerLint.Yaml

open Scanner

variable {ι : Type}

/-! ## Nodes that read back -/

/-- A scalar that reads back as the key of an entry of a map at a column. -/
def Node.LegibleKey (indent : Nat) (key : Node ι) : Prop :=
  match key with
  | .scalar _ anchor tag text =>
    anchor = none ∧
      if isSimpleKey key then LegibleText 0 tag text.toList true ∧ (keyText indent key).length ≤ 1024
      else LegibleText (indent + 2) tag text.toList false
  | _ => False

mutual

/-- A node without names and tags that reads back inside of a list or map at a column, perhaps as the value of an
entry that stands on one line with its key. -/
def Node.Legible (indent : Nat) (inValue : Bool) : Node ι → Prop
  | .scalar _ anchor tag text => anchor = none ∧ LegibleText (indent + 2) tag text.toList false
  | .alias _ => False
  | .list _ anchor tag items =>
    anchor = none ∧ tag = .list ∧ LegibleItems (if inValue then indent else indent + 2) items
  | .map _ anchor tag entries => anchor = none ∧ tag = .map ∧ LegibleEntries (indent + 2) entries

/-- Items of a list at a column that read back. -/
def LegibleItems (indent : Nat) : List (Node ι) → Prop
  | [] => True
  | item :: rest => item.Legible indent false ∧ LegibleItems indent rest

/-- Entries of a map at a column that read back. -/
def LegibleEntries (indent : Nat) : List (Node ι × Node ι) → Prop
  | [] => True
  | (key, value) :: rest =>
    key.LegibleKey indent ∧ value.Legible indent (isSimpleKey key) ∧ LegibleEntries indent rest

end

/-! ## Tokens -/

/-- The token of a scalar. -/
def scalarToken (tag : Tag) (text : String) (onOneLine : Bool) : Token :=
  .scalar (Style.choose tag text.toList onOneLine == .plain) text

/-- The token of a key. -/
def keyTokens (key : Node ι) : List Token :=
  match key with
  | .scalar _ _ tag text => [scalarToken tag text (isSimpleKey key)]
  | _ => []

mutual

/-- The tokens of a node, perhaps as the value of an entry that stands on one line with its key. -/
def nodeTokens (inValue : Bool) : Node ι → List Token
  | .scalar _ _ tag text => [scalarToken tag text false]
  | .alias name => [.alias name]
  | .list _ _ _ items =>
    if items.isEmpty then [.flowListStart, .flowListEnd]
    else if inValue then itemTokens items
    else .listStart :: (itemTokens items ++ [.blockEnd])
  | .map _ _ _ entries =>
    if entries.isEmpty then [.flowMapStart, .flowMapEnd] else .mapStart :: (entryTokens entries ++ [.blockEnd])

/-- The tokens of items. -/
def itemTokens : List (Node ι) → List Token
  | [] => []
  | item :: rest => .item :: (nodeTokens false item ++ itemTokens rest)

/-- The tokens of entries. -/
def entryTokens : List (Node ι × Node ι) → List Token
  | [] => []
  | (key, value) :: rest =>
    .key :: (keyTokens key ++ .value :: (nodeTokens (isSimpleKey key) value ++ entryTokens rest))

end

/-- A list has the tokens of its items, and one more where it does not stand in line with its key. -/
theorem length_itemTokens_le (inValue : Bool) (mark : ι) (items : List (Node ι)) :
    (itemTokens items).length + (if inValue then 0 else 1) ≤
      (nodeTokens inValue (.list mark none .list items)).length := by
  have hone : (if inValue then 0 else 1) ≤ 1 := by cases inValue <;> decide
  cases items with
  | nil =>
    simp only [itemTokens, nodeTokens, List.isEmpty_nil, if_true, List.length_cons, List.length_nil]
    omega
  | cons item items =>
    cases inValue with
    | true => simp [nodeTokens]
    | false =>
      simp only [nodeTokens, List.isEmpty_cons, Bool.false_eq_true, if_false, List.length_cons, List.length_append,
        List.length_nil]
      omega

/-- A map has the tokens of its entries and one more. -/
theorem length_entryTokens_le (inValue : Bool) (mark : ι) (entries : List (Node ι × Node ι)) :
    (entryTokens entries).length + 1 ≤ (nodeTokens inValue (.map mark none .map entries)).length := by
  cases entries with
  | nil => simp [entryTokens, nodeTokens]
  | cons entry entries =>
    simp only [nodeTokens, List.isEmpty_cons, Bool.false_eq_true, if_false, List.length_cons, List.length_append,
      List.length_nil]
    omega

/-! ## The text of nodes -/

section Text

variable {place : Place} {mark : ι} {tag : Tag} {text : String}

theorem nodeText_scalar (hidden : hidesTag tag text.toList (Style.choose tag text.toList false)) :
    nodeText place (.scalar mark none tag text) =
      place.gap ++ scalarLine (place.inner 2) (place.column + place.gap.length) tag text.toList := by
  rw [nodeText, scalarText_eq hidden, List.append_assoc, scalarLine]
  rfl

theorem nodeText_list {items : List (Node ι)} (hne : items ≠ []) :
    nodeText place (.list mark none .list items) =
      place.opening place.ofList ++ joinIndented place.ofList (itemTexts place.ofList items) := by
  rw [nodeText]
  simp [properties, words, hne]

theorem nodeText_map {entries : List (Node ι × Node ι)} (hne : entries ≠ []) :
    nodeText place (.map mark none .map entries) =
      place.opening (place.inner 0) ++ joinIndented (place.inner 0) (entryTexts (place.inner 0) entries) := by
  rw [nodeText]
  simp [properties, words, hne]

theorem nodeText_emptyList : nodeText place (.list mark none .list ([] : List (Node ι))) =
    place.gap ++ ['[', ']', '\n'] := by
  rw [nodeText]
  simp [properties, words]

theorem nodeText_emptyMap :
    nodeText place (.map mark none .map ([] : List (Node ι × Node ι))) = place.gap ++ ['\x7b', '\x7d', '\n'] := by
  rw [nodeText]
  simp [properties, words]

/-- A node is separated from what stands before it. -/
theorem separatorAhead_nodeText {indent : Nat} {inValue : Bool} {node : Node ι} (h : node.Legible indent inValue)
    (hplace : place.separated) (rest : List Char) : separatorAhead (nodeText place node ++ rest) := by
  have hgap : place.gap = [' '] := if_pos hplace
  have hspace : ∀ s, separatorAhead (' ' :: s) := fun s => by simp [separatorAhead, isSeparator]
  have hopening : ∀ n s, separatorAhead (place.opening n ++ s) := fun n s => by
    rw [Place.opening]
    split
    · rw [hgap]; exact hspace s
    · simp [separatorAhead, isSeparator, isBreak]
  cases node with
  | «alias» name => exact h.elim
  | scalar mark anchor tag text =>
    obtain ⟨rfl, h⟩ := h
    rw [nodeText_scalar h.hidden, hgap]
    exact hspace _
  | list mark anchor tag items =>
    obtain ⟨rfl, rfl, -⟩ := h
    cases items with
    | nil => rw [nodeText_emptyList, hgap]; exact hspace _
    | cons item items => rw [nodeText_list (by simp), List.append_assoc]; exact hopening _ _
  | map mark anchor tag entries =>
    obtain ⟨rfl, rfl, -⟩ := h
    cases entries with
    | nil => rw [nodeText_emptyMap, hgap]; exact hspace _
    | cons entry entries => rw [nodeText_map (by simp), List.append_assoc]; exact hopening _ _

end Text

/-! ## What follows a node -/

/-- The text goes on behind a node inside of a list or map at a column. Line feeds count to a node that ends open. -/
def Follows (i : Nat) (endsOpen : Bool) (rest : List Char) : Prop :=
  ∃ feeds, Resumes (i + 1) feeds rest ∧ Closes (i + 1) rest ∧ (feeds = 0 ∨ endsOpen = false)

theorem Follows.mono {i j : Nat} {endsOpen : Bool} {rest : List Char} (h : Follows i endsOpen rest) (hle : i ≤ j) :
    Follows j endsOpen rest := by
  obtain ⟨feeds, hresumes, hcloses, hfeeds⟩ := h
  exact ⟨feeds, hresumes.mono (by omega), fun q k ind before hq hk => hcloses q k ind before hq (by omega), hfeeds⟩

/-- The next item or entry follows. -/
theorem Follows.token {i : Nat} {c : Char} (hc : beginsToken c) (endsOpen : Bool) (r : List Char) :
    Follows i endsOpen (spaces i ++ c :: r) := by
  refine ⟨0, ⟨i, c :: r, rfl, by omega, ?_⟩, closes_of_token (by omega) hc r, .inl rfl⟩
  simp only [beginsToken, Bool.and_eq_true, bne_iff_ne, ne_eq, Bool.not_eq_true'] at hc
  simp [hc.1.1.1, hc.1.1.2]

/-! ## The places of nodes -/

/-- A node is written at a place behind the column of the list or map around. On a fresh line it stands next to the
sign before it. -/
structure Place.Within (place : Place) (i : Nat) (p : Position) (allows : Bool) : Prop where
  indent : place.indent = some i
  separated : place.separated = true
  deeper : i < p.column
  fresh : place.fresh = true → p.column = i + 1 ∧ allows = true
  inValue : place.fresh = false → place.inMap = true

section Places

variable {place : Place} {p : Position} {i : Nat} {indents : List Nat} {allows : Bool} {before : List Token}

theorem Place.Within.inner (h : place.Within i p allows) (atTop : Nat) : place.inner atTop = i + 2 := by
  simp [Place.inner, h.indent]

theorem Place.Within.ofList (h : place.Within i p allows) :
    place.ofList = if !place.fresh then i else i + 2 := by
  cases hfresh : place.fresh with
  | true => simp [Place.ofList, h.indent, hfresh]
  | false => simp [Place.ofList, h.indent, hfresh, h.inValue hfresh]

theorem Place.Within.gap (h : place.Within i p allows) : place.gap = [' '] := if_pos h.separated

theorem scan_space (rest : List Char) :
    scanFrom p indents allows before (' ' :: rest) = scanFrom (p.next ' ') indents allows before rest :=
  tokensFrom_space rest

theorem next_space (p : Position) : p.next ' ' = ⟨p.index + 1, p.line, p.column + 1⟩ :=
  Position.next_of_inline (by decide) (by decide)

/-- What stands before the first item or entry leads to the column of the list or map. -/
theorem scan_placeOpening (indents : List Nat) (before : List Token) (h : place.Within i p allows) {n : Nat}
    (hn : place.fresh = true → n = i + 2) (rest : List Char) :
    scanFrom p indents allows before (place.opening n ++ rest) =
        scanFrom (p.after (place.opening n)) indents true before rest ∧
      (p.after (place.opening n)).column = n := by
  rw [Place.opening]
  cases hfresh : place.fresh with
  | true =>
    obtain ⟨hcolumn, rfl⟩ := h.fresh hfresh
    obtain rfl := hn hfresh
    rw [if_pos rfl, h.gap]
    exact ⟨scan_space rest, by rw [Position.after_cons, Position.after_nil, next_space, hcolumn]⟩
  | false =>
    rw [if_neg (by simp), List.cons_append, Position.after_cons, Position.after_spaces]
    refine ⟨(tokensFrom_feed _).trans ((scan_spaces n rest).trans ?_), by simp [Position.next_of_isBreak, isBreak]⟩
    rw [Position.after_spaces]

end Places

/-! ## Signs before nodes -/

section Signs

variable {q : Position} {j : Nat} {indents : List Nat} {before : List Token} {rest : List Char}

theorem item_within (hq : q.column = j) : (Place.item j).Within j (q.next '-') true := by
  have hnext : (q.next '-').column = j + 1 := by rw [Position.next_of_inline (by decide) (by decide), hq]
  exact ⟨rfl, rfl, by omega, fun _ => ⟨hnext, rfl⟩, fun h => by cases h⟩

theorem part_within {c : Char} (hc : c = '?' ∨ c = ':') (hq : q.column = j) :
    (Place.part j).Within j (q.next c) true := by
  have hnext : (q.next c).column = j + 1 := by
    obtain rfl | rfl := hc <;> rw [Position.next_of_inline (by decide) (by decide), hq]
  exact ⟨rfl, rfl, by omega, fun _ => ⟨hnext, rfl⟩, fun h => by cases h⟩

theorem joinIndented_cons (indent : Nat) (piece : List Char) (pieces : List (List Char)) :
    joinIndented indent (piece :: pieces) =
      piece ++ (if pieces = [] then [] else spaces indent ++ joinIndented indent pieces) := by
  cases pieces <;> simp [joinIndented]

/-- The first character of items is the hyphen. -/
theorem joinIndented_itemTexts (j : Nat) (item : Node ι) (items : List (Node ι)) :
    ∃ w, joinIndented j (itemTexts j (item :: items)) = '-' :: (nodeText (.item j) item ++ w) := by
  rw [itemTexts, joinIndented_cons]
  exact ⟨_, rfl⟩

/-- Items that stand further right begin a list. -/
theorem scan_openItems {item : Node ι} {items : List (Node ι)} (hitem : item.Legible j false) (hq : q.column = j)
    (hdeeper : ∀ i ∈ indents.head?, i < j) :
    scanFrom q indents true before (joinIndented j (itemTexts j (item :: items)) ++ rest) =
      scanFrom q (j :: indents) true (.listStart :: before) (joinIndented j (itemTexts j (item :: items)) ++ rest) := by
  subst hq
  obtain ⟨w, hw⟩ := joinIndented_itemTexts q.column item items
  rw [hw, List.cons_append, List.append_assoc]
  exact scan_opening hdeeper (by decide) fun _ _ => step_item (separatorAhead_nodeText hitem rfl _)

/-- The text of an entry at a column. -/
def entryText (indent : Nat) (key value : Node ι) : List Char :=
  if isSimpleKey key then
    keyText indent key ++ ':' :: nodeText (.value indent (indent + (keyText indent key).length + 1)) value
  else '?' :: nodeText (.part indent) key ++ spaces indent ++ ':' :: nodeText (.part indent) value

theorem entryTexts_cons (indent : Nat) (key value : Node ι) (rest : List (Node ι × Node ι)) :
    entryTexts indent ((key, value) :: rest) = entryText indent key value :: entryTexts indent rest := by
  rw [entryTexts, entryText]

/-- A key on one line, with what makes it one. -/
theorem legibleKey_simple {key : Node ι} (h : key.LegibleKey j) (hsimple : isSimpleKey key) :
    ∃ tag text, keyTokens key = [scalarToken tag text true] ∧ LegibleText 0 tag text.toList true ∧
      keyText j key = (Style.choose tag text.toList true).shown ⟨j + 2, false⟩ j text.toList ∧
        (keyText j key).length ≤ 1024 := by
  cases key with
  | scalar mark anchor tag text =>
    obtain ⟨rfl, h⟩ := h
    rw [if_pos hsimple] at h
    refine ⟨tag, text, by rw [keyTokens, hsimple], h.1, ?_, h.2⟩
    rw [keyText, scalarText_eq h.1.hidden]
    rfl
  | «alias» name => exact h.elim
  | list mark anchor tag items => exact h.elim
  | map mark anchor tag entries => exact h.elim

/-- A key that does not stand on one line is a node of its own. -/
theorem legibleKey_part {key : Node ι} (h : key.LegibleKey j) (hsimple : isSimpleKey key = false) :
    key.Legible j false ∧ keyTokens key = nodeTokens false key ∧
      ∃ mark tag text, key = .scalar mark none tag text := by
  cases key with
  | scalar mark anchor tag text =>
    obtain ⟨rfl, h⟩ := h
    rw [if_neg (by simp [hsimple])] at h
    exact ⟨⟨rfl, h⟩, by rw [keyTokens, hsimple, nodeTokens], mark, tag, text, rfl⟩
  | «alias» name => exact h.elim
  | list mark anchor tag items => exact h.elim
  | map mark anchor tag entries => exact h.elim

/-- A key on one line begins with a character that begins a token. -/
theorem shown_head {tag : Tag} {s : List Char} {f : Folding} (column : Nat) (h : LegibleText 0 tag s true) :
    ∃ c w, (Style.choose tag s true).shown f column s = c :: w ∧ beginsToken c := by
  cases hstyle : Style.choose tag s true with
  | plain =>
    obtain ⟨c, r, rfl⟩ := List.exists_cons_of_ne_nil (h.nonempty hstyle)
    obtain ⟨hlead, hseparator, -⟩ := plain_lead (choose_plain hstyle)
    obtain ⟨w, hw, -⟩ := plainText_cons (f := f) (r := r) column hseparator
    exact ⟨c, w, hw, beginsToken_of_lead hlead hseparator
      (isOrdinary_of_allowsPlain (choose_plain hstyle) c (.head _)).1⟩
  | single => exact ⟨'\'', _, rfl, by decide⟩
  | double => exact ⟨'"', _, rfl, by decide⟩
  | block => cases (choose_block hstyle).2

/-- Entries begin with a character that begins a token. -/
theorem joinIndented_entryTexts {key : Node ι} (value : Node ι) (entries : List (Node ι × Node ι))
    (hkey : key.LegibleKey j) :
    ∃ c w, joinIndented j (entryTexts j ((key, value) :: entries)) = c :: w ∧ beginsToken c := by
  rw [entryTexts_cons, joinIndented_cons, entryText]
  split
  · rename_i hsimple
    obtain ⟨tag, text, -, hlegible, htext, -⟩ := legibleKey_simple hkey hsimple
    obtain ⟨c, w, hw, hc⟩ := shown_head (f := ⟨j + 2, false⟩) j hlegible
    rw [htext, hw]
    exact ⟨c, _, rfl, hc⟩
  · exact ⟨'?', _, rfl, by decide⟩

/-- Entries that stand further right begin a map. -/
theorem scan_openEntries (indents : List Nat) (before : List Token) {key value : Node ι}
    (entries : List (Node ι × Node ι)) (rest : List Char) (hkey : key.LegibleKey j)
    (hvalue : value.Legible j (isSimpleKey key)) (hq : q.column = j) (hdeeper : ∀ i ∈ indents.head?, i < j) :
    scanFrom q indents true before (joinIndented j (entryTexts j ((key, value) :: entries)) ++ rest) =
      scanFrom q (j :: indents) true (.mapStart :: before)
        (joinIndented j (entryTexts j ((key, value) :: entries)) ++ rest) := by
  subst hq
  rw [entryTexts_cons, joinIndented_cons, entryText]
  split
  · rename_i hsimple
    obtain ⟨tag, text, -, hlegible, htext, hshort⟩ := legibleKey_simple hkey hsimple
    rw [htext] at hshort ⊢
    simp only [List.append_assoc, List.cons_append]
    exact scan_firstKey hlegible rfl (by simp) hshort hdeeper (separatorAhead_nodeText hvalue rfl _)
  · rename_i hsimple
    obtain ⟨hpart, -, -⟩ := legibleKey_part hkey (by simpa using hsimple)
    simp only [List.append_assoc, List.cons_append]
    exact scan_opening hdeeper (by decide) fun _ houter => step_keySign houter (separatorAhead_nodeText hpart rfl _)

end Signs

/-! ## Nodes -/

/-- The node, wherever it is printed legibly, is scanned as its tokens and ends its last line. -/
def Node.Scans (node : Node ι) : Prop :=
  ∀ (place : Place) (i : Nat) (p : Position) (indents : List Nat) (allows : Bool) (before : List Token)
    (rest : List Char), node.Legible i (!place.fresh) → place.Within i p allows → Follows i (endsOpen node) rest →
    scanFrom p (i :: indents) allows before (nodeText place node ++ rest) =
      scanFrom (p.after (nodeText place node)) (i :: indents) true ((nodeTokens (!place.fresh) node).reverse ++ before)
        rest ∧
    (p.after (nodeText place node)).column = 0

/-- A list or map that stands further right than the one around begins behind the place and ends before what
follows. -/
theorem scan_collection {place : Place} {i : Nat} {p : Position} {indents : List Nat} {allows : Bool}
    {before tokens : List Token} {first : Token} {body rest : List Char} {endsOpen : Bool}
    (hplace : place.Within i p allows) (hrest : Follows i endsOpen rest)
    (hopen : ∀ q : Position, q.column = i + 2 →
      scanFrom q (i :: indents) true before (body ++ rest) =
        scanFrom q ((i + 2) :: i :: indents) true (first :: before) (body ++ rest))
    (hscan : ∀ q : Position, q.column = i + 2 →
      scanFrom q ((i + 2) :: i :: indents) true (first :: before) (body ++ rest) =
        scanFrom (q.after body) ((i + 2) :: i :: indents) true (tokens.reverse ++ first :: before) rest ∧
        (q.after body).column = 0) :
    scanFrom p (i :: indents) allows before (place.opening (i + 2) ++ (body ++ rest)) =
      scanFrom (p.after (place.opening (i + 2) ++ body)) (i :: indents) true
        ((first :: (tokens ++ [.blockEnd])).reverse ++ before) rest ∧
      (p.after (place.opening (i + 2) ++ body)).column = 0 := by
  obtain ⟨feeds, -, hcloses, -⟩ := hrest
  obtain ⟨hopening, hcolumn⟩ := scan_placeOpening (i :: indents) before hplace (n := i + 2)
    (fun _ => rfl) (body ++ rest)
  obtain ⟨hbody, hend⟩ := hscan _ hcolumn
  rw [hopening, hopen _ hcolumn, hbody, hcloses _ (i + 2) _ _ hend (by omega), Position.after_append]
  exact ⟨by simp, hend⟩

section Parts

variable {j : Nat} {q : Position} {indents : List Nat} {before : List Token} {rest : List Char}

/-- An item is scanned with its hyphen. -/
theorem scan_item (indents : List Nat) (before : List Token) {item : Node ι} (hitem : item.Scans)
    (hlegible : item.Legible j false) (hq : q.column = j)
    (hrest : Follows j (endsOpen item) rest) :
    scanFrom q (j :: indents) true before ('-' :: nodeText (.item j) item ++ rest) =
      scanFrom (q.after ('-' :: nodeText (.item j) item)) (j :: indents) true
        ((nodeTokens false item).reverse ++ .item :: before) rest ∧
      (q.after ('-' :: nodeText (.item j) item)).column = 0 := by
  rw [List.cons_append,
    scan_openSign hq (by decide) fun _ _ => step_item (separatorAhead_nodeText hlegible rfl rest)]
  exact hitem (.item j) j (q.next '-') indents true (.item :: before) rest hlegible (item_within hq) hrest

/-- An entry is scanned with its key. -/
theorem scan_entry (indents : List Nat) (before : List Token) {key value : Node ι} (hkey : key.Scans)
    (hvalue : value.Scans) (hlegibleKey : key.LegibleKey j)
    (hlegible : value.Legible j (isSimpleKey key)) (hq : q.column = j) (hrest : Follows j (endsOpen value) rest) :
    scanFrom q (j :: indents) true before (entryText j key value ++ rest) =
      scanFrom (q.after (entryText j key value)) (j :: indents) true
        ((nodeTokens (isSimpleKey key) value).reverse ++ .value :: ((keyTokens key).reverse ++ .key :: before)) rest ∧
      (q.after (entryText j key value)).column = 0 := by
  rw [entryText]
  split
  · rename_i hsimple
    obtain ⟨tag, text, htokens, htext, hshown, hshort⟩ := legibleKey_simple hlegibleKey hsimple
    rw [hsimple] at hlegible ⊢
    rw [hshown] at hshort
    have hcolumn : j < (q.after (keyText j key ++ [':'])).column := by
      rw [hshown, Position.after_append, after_key _ _ _ _ rfl, Position.after_cons, Position.after_nil,
        Position.next_of_inline (by decide) (by decide), hq]
      exact Nat.lt_succ_of_le (Nat.le_add_right _ _)
    obtain ⟨hscan, hend⟩ := hvalue (.value j (j + (keyText j key).length + 1)) j (q.after (keyText j key ++ [':']))
      indents
      false (.value :: scalarToken tag text true :: .key :: before) rest hlegible
      ⟨rfl, rfl, hcolumn, (fun h => by cases h), fun _ => rfl⟩ hrest
    have hkeyScan := scan_key (p := q) (f := ⟨j + 2, false⟩) indents before htext rfl (by simp)
      hshort hq
      (separatorAhead_nodeText hlegible (show (Place.value j (j + (keyText j key).length + 1)).separated from rfl) rest)
    rw [← hshown, String.ofList_toList] at hkeyScan
    have hafter : ∀ v, q.after (keyText j key ++ ':' :: v) = (q.after (keyText j key ++ [':'])).after v := fun v => by
      rw [← Position.after_append, List.append_assoc, List.singleton_append]
    rw [List.append_assoc, List.cons_append, hkeyScan, htokens, hafter (nodeText _ value)]
    exact ⟨hscan, hend⟩
  · rename_i hsimple
    rw [Bool.not_eq_true] at hsimple
    obtain ⟨hpart, htokens, -⟩ := legibleKey_part hlegibleKey hsimple
    rw [hsimple] at hlegible ⊢
    have hahead := fun r => separatorAhead_nodeText hlegible (show (Place.part j).separated from rfl) r
    obtain ⟨hscanKey, hendKey⟩ := hkey (.part j) j (q.next '?') indents true (.key :: before)
      (spaces j ++ ':' :: (nodeText (.part j) value ++ rest)) hpart (part_within (.inl rfl) hq)
      (.token (by decide) _ _)
    have hcolumn : (((q.next '?').after (nodeText (.part j) key)).after (spaces j)).column = j := by
      rw [Position.after_spaces, hendKey, Nat.zero_add]
    obtain ⟨hscan, hend⟩ := hvalue (.part j) j _ indents true (.value :: ((keyTokens key).reverse ++ .key :: before))
      rest
      hlegible (part_within (.inr rfl) hcolumn) hrest
    have htext : '?' :: nodeText (.part j) key ++ spaces j ++ ':' :: nodeText (.part j) value ++ rest =
        '?' :: (nodeText (.part j) key ++ (spaces j ++ ':' :: (nodeText (.part j) value ++ rest))) := by simp
    rw [htext, scan_openSign hq (by decide) fun _ houter => step_keySign houter (separatorAhead_nodeText hpart rfl _)]
    have hafter : q.after ('?' :: nodeText (.part j) key ++ spaces j ++ ':' :: nodeText (.part j) value) =
        ((((q.next '?').after (nodeText (.part j) key)).after (spaces j)).next ':').after
          (nodeText (.part j) value) := by
      simp [Position.after_cons, Position.after_append]
    rw [htokens] at hscan
    rw [hafter, hscanKey, scan_spaces, scan_valueSign hcolumn (hahead rest), htokens]
    exact ⟨hscan, hend⟩

end Parts

mutual

/-- **A printed node is scanned as its tokens**, and ends its last line. -/
theorem scan_node : ∀ node : Node ι, node.Scans
  | .alias _ => fun _ _ _ _ _ _ _ h => h.elim
  | .scalar mark anchor tag text => by
    intro place i p indents allows before rest h hplace hrest
    obtain ⟨rfl, h⟩ := h
    obtain ⟨feeds, hresumes, -, hfeeds⟩ := hrest
    have hdeeper : i < (p.next ' ').column := by rw [next_space]; exact Nat.lt_succ_of_lt hplace.deeper
    obtain ⟨hscan, hcolumn⟩ := scan_scalar (place.column + 1) indents allows before h hdeeper hresumes hfeeds
    rw [nodeText_scalar h.hidden, hplace.gap, hplace.inner, List.append_assoc, List.singleton_append, scan_space]
    rw [String.ofList_toList] at hscan
    exact ⟨hscan, hcolumn⟩
  | .list mark anchor tag [] => by
    intro place i p indents allows before rest h hplace hrest
    obtain ⟨rfl, rfl, -⟩ := h
    have hdeeper : i < (p.next ' ').column := by rw [next_space]; exact Nat.lt_succ_of_lt hplace.deeper
    rw [nodeText_emptyList, hplace.gap, List.append_assoc, List.singleton_append, scan_space]
    exact ⟨scan_brackets hdeeper (.head _) rest, Position.column_after_feed _ [' ', '[', ']']⟩
  | .list mark anchor tag (item :: items) => by
    intro place i p indents allows before rest h hplace hrest
    obtain ⟨rfl, rfl, hitems⟩ := h
    rw [nodeText_list (by simp), List.append_assoc, hplace.ofList]
    cases hfresh : place.fresh with
    | true =>
      rw [hfresh] at hitems
      simp only [Bool.not_true, Bool.false_eq_true, if_false] at hitems ⊢
      exact scan_collection hplace hrest (fun q hq => scan_openItems hitems.1 hq (by simp))
        fun q hq => scan_items _ _ _ (item :: items) (by simp) hitems hq (hrest.mono (by omega))
    | false =>
      -- A list that is a value has the column of the map around and no beginning of its own.
      rw [hfresh] at hitems
      simp only [Bool.not_false, if_true] at hitems ⊢
      obtain ⟨hopening, hcolumn⟩ := scan_placeOpening (i :: indents) before hplace
        (n := i) (fun h => by simp [hfresh] at h) (joinIndented i (itemTexts i (item :: items)) ++ rest)
      obtain ⟨hscan, hend⟩ := scan_items _ _ _ (item :: items) (by simp) hitems hcolumn hrest
      rw [hopening, hscan, Position.after_append]
      exact ⟨rfl, hend⟩
  | .map mark anchor tag [] => by
    intro place i p indents allows before rest h hplace hrest
    obtain ⟨rfl, rfl, -⟩ := h
    have hdeeper : i < (p.next ' ').column := by rw [next_space]; exact Nat.lt_succ_of_lt hplace.deeper
    rw [nodeText_emptyMap, hplace.gap, List.append_assoc, List.singleton_append, scan_space]
    exact ⟨scan_brackets hdeeper (.tail _ (.head _)) rest, Position.column_after_feed _ [' ', '\x7b', '\x7d']⟩
  | .map mark anchor tag ((key, value) :: entries) => by
    intro place i p indents allows before rest h hplace hrest
    obtain ⟨rfl, rfl, hentries⟩ := h
    rw [nodeText_map (by simp), List.append_assoc, hplace.inner]
    exact scan_collection hplace hrest (fun q hq => scan_openEntries _ _ _ _ hentries.1 hentries.2.1 hq (by simp))
      fun q hq => scan_entries _ _ _ ((key, value) :: entries) (by simp) hentries hq (hrest.mono (by omega))

/-- Printed items are scanned as their tokens. -/
theorem scan_items {j : Nat} {q : Position} (indents : List Nat) (before : List Token) (rest : List Char) :
    ∀ items : List (Node ι), items ≠ [] → LegibleItems j items → q.column = j →
      Follows j (endsOpen.endsOpenItems items) rest →
      scanFrom q (j :: indents) true before (joinIndented j (itemTexts j items) ++ rest) =
        scanFrom (q.after (joinIndented j (itemTexts j items))) (j :: indents) true
          ((itemTokens items).reverse ++ before) rest ∧
        (q.after (joinIndented j (itemTexts j items))).column = 0
  | [], h, _, _, _ => absurd rfl h
  | [item], _, hlegible, hq, hrest => by
    obtain ⟨hscan, hend⟩ := scan_item indents before (scan_node item) hlegible.1 hq hrest
    rw [itemTexts, itemTexts, joinIndented, hscan]
    exact ⟨by simp [itemTokens], hend⟩
  | item :: next :: items, _, hlegible, hq, hrest => by
    obtain ⟨w, hw⟩ := joinIndented_itemTexts j next items
    have hfollows : Follows j (endsOpen item) (spaces j ++ (joinIndented j (itemTexts j (next :: items)) ++ rest)) := by
      rw [hw, List.cons_append]
      exact .token (by decide) _ _
    obtain ⟨hscan, hend⟩ := scan_item indents before (scan_node item) hlegible.1 hq hfollows
    have hcolumn : ((q.after ('-' :: nodeText (.item j) item)).after (spaces j)).column = j := by
      rw [Position.after_spaces, hend, Nat.zero_add]
    obtain ⟨hitems, hend'⟩ := scan_items indents ((nodeTokens false item).reverse ++ .item :: before) rest
      (next :: items) (by simp) hlegible.2 hcolumn hrest
    have htext : joinIndented j (itemTexts j (item :: next :: items)) =
        '-' :: nodeText (.item j) item ++ (spaces j ++ joinIndented j (itemTexts j (next :: items))) := by
      rw [itemTexts, joinIndented_cons, if_neg (by simp [itemTexts])]
    rw [htext, List.append_assoc, List.append_assoc, hscan, scan_spaces, hitems, Position.after_append,
      Position.after_append]
    exact ⟨by simp [itemTokens], hend'⟩

/-- Printed entries are scanned as their tokens. -/
theorem scan_entries {j : Nat} {q : Position} (indents : List Nat) (before : List Token) (rest : List Char) :
    ∀ entries : List (Node ι × Node ι), entries ≠ [] → LegibleEntries j entries → q.column = j →
      Follows j (endsOpen.endsOpenEntries entries) rest →
      scanFrom q (j :: indents) true before (joinIndented j (entryTexts j entries) ++ rest) =
        scanFrom (q.after (joinIndented j (entryTexts j entries))) (j :: indents) true
          ((entryTokens entries).reverse ++ before) rest ∧
        (q.after (joinIndented j (entryTexts j entries))).column = 0
  | [], h, _, _, _ => absurd rfl h
  | [(key, value)], _, hlegible, hq, hrest => by
    obtain ⟨hscan, hend⟩ := scan_entry indents before (scan_node key) (scan_node value)
      hlegible.1 hlegible.2.1 hq hrest
    rw [entryTexts_cons, entryTexts, joinIndented, hscan]
    exact ⟨by simp [entryTokens], hend⟩
  | (key, value) :: (key', value') :: entries, _, hlegible, hq, hrest => by
    obtain ⟨c, w, hw, hc⟩ := joinIndented_entryTexts value' entries hlegible.2.2.1
    have hfollows : Follows j (endsOpen value)
        (spaces j ++ (joinIndented j (entryTexts j ((key', value') :: entries)) ++ rest)) := by
      rw [hw, List.cons_append]
      exact .token hc _ _
    obtain ⟨hscan, hend⟩ := scan_entry indents before (scan_node key) (scan_node value)
      hlegible.1 hlegible.2.1 hq hfollows
    have hcolumn : ((q.after (entryText j key value)).after (spaces j)).column = j := by
      rw [Position.after_spaces, hend, Nat.zero_add]
    obtain ⟨hentries, hend'⟩ := scan_entries indents
      ((nodeTokens (isSimpleKey key) value).reverse ++ .value :: ((keyTokens key).reverse ++ .key :: before)) rest
      ((key', value') :: entries) (by simp) hlegible.2.2 hcolumn hrest
    have htext : joinIndented j (entryTexts j ((key, value) :: (key', value') :: entries)) =
        entryText j key value ++ (spaces j ++ joinIndented j (entryTexts j ((key', value') :: entries))) := by
      rw [entryTexts_cons j key value, joinIndented_cons, if_neg (by simp [entryTexts_cons])]
    rw [htext, List.append_assoc, List.append_assoc, hscan, scan_spaces, hentries, Position.after_append,
      Position.after_append]
    exact ⟨by simp [entryTokens], hend'⟩

end

end LayerLint.Yaml
