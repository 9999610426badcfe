import LayerLint.Yaml.Reader
import LayerLint.Proofs.Yaml.ReadBack.Tokens

/-!
# The nodes that tokens describe

From the tokens of a node without names the reader makes the node again, with marks that count the tokens from its
beginning on (`read_node`, by recursion over the node).
-/

namespace LayerLint.Yaml

open Yaml.Node

variable {ι : Type}

mutual

/-- The node with the marks that the reader gives it where some tokens follow. -/
def marked (inValue : Bool) (after : Nat) : Node ι → Node Nat
  | .scalar _ _ tag text => .scalar (after + 1) none tag text
  | .alias name => .alias name
  | .list mark anchor tag items =>
    .list ((nodeTokens inValue (.list mark anchor tag items)).length + after) none .list
      (markedItems (if inValue then after else after + 1) items)
  | .map mark anchor tag entries =>
    .map ((nodeTokens inValue (.map mark anchor tag entries)).length + after) none .map
      (markedEntries (after + 1) entries)

/-- Items with their marks. -/
def markedItems (after : Nat) : List (Node ι) → List (Node Nat)
  | [] => []
  | item :: rest => marked false ((itemTokens rest).length + after) item :: markedItems after rest

/-- Entries with their marks. -/
def markedEntries (after : Nat) : List (Node ι × Node ι) → List (Node Nat × Node Nat)
  | [] => []
  | (key, value) :: rest =>
    (marked false ((nodeTokens (isSimpleKey key) value).length + (entryTokens rest).length + after + 1) key,
      marked (isSimpleKey key) ((entryTokens rest).length + after) value) :: markedEntries after rest

end

/-! ## First tokens -/

/-- The token begins a node that has neither name nor tag. -/
def beginsNode (token : Token) : Bool :=
  match token with
  | .scalar .. | .flowListStart | .flowMapStart | .listStart | .mapStart => true
  | _ => false

theorem nodeTokens_head {indent : Nat} {inValue : Bool} {node : Node ι} (h : node.Legible indent inValue) :
    ∃ token rest, nodeTokens inValue node = token :: rest ∧ (beginsNode token ∨ (inValue = true ∧ token = .item)) := by
  cases node with
  | «alias» name => exact h.elim
  | scalar mark anchor tag text => exact ⟨_, _, by rw [nodeTokens], .inl rfl⟩
  | list mark anchor tag items =>
    rw [nodeTokens]
    cases items with
    | nil => exact ⟨_, _, rfl, .inl rfl⟩
    | cons item items =>
      cases inValue with
      | true => exact ⟨_, _, by rw [itemTokens]; rfl, .inr ⟨rfl, rfl⟩⟩
      | false => exact ⟨_, _, rfl, .inl rfl⟩
  | map mark anchor tag entries =>
    rw [nodeTokens]
    cases entries with
    | nil => exact ⟨_, _, rfl, .inl rfl⟩
    | cons entry entries => exact ⟨_, _, rfl, .inl rfl⟩

/-! ## Steps of the reader -/

section Steps

variable {fuel : Nat} {handles : Handles} {admits : Admits} {rest r : List Token}

theorem read_scalar (plain : Bool) (text : String) (rest : List Token) :
    Node.read (fuel + 1) handles admits (.scalar plain text :: rest) =
      .ok (.scalar (rest.length + 1) none (scalarTag none plain text) text, rest) := by
  simp [Node.read, propertiesAt, bind, Except.bind, pure, Except.pure]

theorem read_emptyList (rest : List Token) :
    Node.read (fuel + 2) handles admits (.flowListStart :: .flowListEnd :: rest) =
      .ok (.list (rest.length + 2) none .list [], rest) := by
  simp [Node.read, readFlowItems, propertiesAt, collectionTag, bind, Except.bind, pure, Except.pure]

theorem read_emptyMap (rest : List Token) :
    Node.read (fuel + 2) handles admits (.flowMapStart :: .flowMapEnd :: rest) =
      .ok (.map (rest.length + 2) none .map [], rest) := by
  simp [Node.read, readFlowEntries, propertiesAt, collectionTag, bind, Except.bind, pure, Except.pure]

theorem read_list {items : List (Node Nat)} (hadmits : admits ≠ .flow)
    (h : readItems fuel handles rest = .ok (items, r)) :
    Node.read (fuel + 1) handles admits (.listStart :: rest) = .ok (.list (rest.length + 1) none .list items, r) := by
  simp [Node.read, propertiesAt, collectionTag, hadmits, h, bind, Except.bind, pure, Except.pure]

theorem read_looseList {items : List (Node Nat)} (h : readLooseItems fuel handles (.item :: rest) = .ok (items, r)) :
    Node.read (fuel + 1) handles .looseList (.item :: rest) = .ok (.list (rest.length + 1) none .list items, r) := by
  simp [Node.read, propertiesAt, collectionTag, h, bind, Except.bind, pure, Except.pure]

theorem read_map {entries : List (Node Nat × Node Nat)} (hadmits : admits ≠ .flow)
    (h : readEntries fuel handles rest = .ok (entries, r)) :
    Node.read (fuel + 1) handles admits (.mapStart :: rest) = .ok (.map (rest.length + 1) none .map entries, r) := by
  simp [Node.read, propertiesAt, collectionTag, hadmits, h, bind, Except.bind, pure, Except.pure]

theorem scalarTag_of_legible {indent : Nat} {tag : Tag} {text : String} {onOneLine : Bool}
    (h : LegibleText indent tag text.toList onOneLine) :
    scalarTag none (Style.choose tag text.toList onOneLine == .plain) text = tag := by
  have hidden := h.hidden
  rw [hidesTag] at hidden
  rw [scalarTag]
  split at hidden
  · rename_i hplain
    simpa [hplain] using hidden
  · rename_i hplain
    have : (Style.choose tag text.toList onOneLine == .plain) = false := by simpa using hplain
    simpa [this] using (beq_iff_eq.mp hidden).symm

/-- The tokens of a node stand for a node, not for a missing one. -/
theorem readUnless_node {indent : Nat} {inValue : Bool} {node : Node ι} {signs : List Token}
    (h : node.Legible indent inValue) (hitem : inValue = true → .item ∉ signs)
    (hsigns : ∀ token ∈ signs, beginsNode token = false) (rest : List Token) :
    readUnless (fuel + 1) handles admits signs (nodeTokens inValue node ++ rest) =
      Node.read fuel handles admits (nodeTokens inValue node ++ rest) := by
  obtain ⟨token, more, hhead, htoken⟩ := nodeTokens_head h
  have hnot : token ∉ signs := fun hmem => by
    rcases htoken with h | ⟨hvalue, rfl⟩
    · simp [hsigns token hmem] at h
    · exact hitem hvalue hmem
  rw [readUnless, hhead]
  simp [ahead, hnot]

end Steps

/-! ## Nodes -/

/-- The node, where it is legible, is read from its tokens. -/
def Node.Reads (node : Node ι) : Prop :=
  ∀ (indent : Nat) (inValue : Bool) (fuel : Nat) (handles : Handles) (admits : Admits) (rest : List Token),
    node.Legible indent inValue → 4 * (nodeTokens inValue node).length + 2 ≤ fuel → admits ≠ .flow →
    (inValue = true → admits = .looseList ∧ rest.head? ≠ some .item) →
    Node.read fuel handles admits (nodeTokens inValue node ++ rest) = .ok (marked inValue rest.length node, rest)

/-- A key is read from its tokens. -/
theorem read_key {key : Node ι} {j fuel : Nat} (handles : Handles) (rest : List Token) (h : key.LegibleKey j)
    (hfuel : 2 ≤ fuel) :
    readUnless fuel handles .looseList [.key, .value, .blockEnd] (keyTokens key ++ rest) =
      .ok (marked false rest.length key, rest) := by
  obtain ⟨fuel, rfl⟩ := Nat.exists_eq_add_of_le' hfuel
  cases key with
  | scalar mark anchor tag text =>
    obtain ⟨onOneLine, i, htoken, htext⟩ : ∃ onOneLine i,
        keyTokens (.scalar mark anchor tag text) = [scalarToken tag text onOneLine] ∧
          LegibleText i tag text.toList onOneLine := by
      obtain ⟨-, h⟩ := h
      split at h
      · rename_i hsimple
        exact ⟨true, 0, by rw [keyTokens, hsimple], h.1⟩
      · rename_i hsimple
        exact ⟨false, j + 2, by rw [keyTokens, Bool.of_not_eq_true hsimple], h⟩
    rw [htoken, List.singleton_append, scalarToken, readUnless, if_neg (by simp [ahead]), read_scalar,
      scalarTag_of_legible htext, marked]
  | «alias» name => exact h.elim
  | list mark anchor tag items => exact h.elim
  | map mark anchor tag entries => exact h.elim

mutual

/-- **A node is read from its tokens.** -/
theorem read_node : ∀ node : Node ι, node.Reads
  | .alias _ => fun _ _ _ _ _ _ h => h.elim
  | .scalar mark anchor tag text => by
    intro indent inValue fuel handles admits rest h hfuel _ _
    obtain ⟨fuel, rfl⟩ := Nat.exists_eq_succ_of_ne_zero (show fuel ≠ 0 by omega)
    rw [nodeTokens, List.singleton_append, scalarToken, read_scalar, scalarTag_of_legible h.2, marked]
  | .list mark anchor tag [] => by
    intro indent inValue fuel handles admits rest h hfuel _ _
    obtain ⟨fuel, rfl⟩ := Nat.exists_eq_add_of_le' (show 2 ≤ fuel by omega)
    simpa [nodeTokens, marked, markedItems, Nat.add_comm 2] using read_emptyList rest
  | .list mark anchor tag (item :: items) => by
    intro indent inValue fuel handles admits rest h hfuel hflow hvalue
    obtain ⟨fuel, rfl⟩ := Nat.exists_eq_succ_of_ne_zero (show fuel ≠ 0 by omega)
    cases inValue with
    | false =>
      have htokens : nodeTokens false (.list mark anchor tag (item :: items)) =
          .listStart :: (itemTokens (item :: items) ++ [.blockEnd]) := by simp [nodeTokens]
      simp only [htokens, List.length_cons, List.length_append, List.length_nil] at hfuel
      have hitems := read_items fuel handles rest (item :: items) h.2.2 (by omega)
      rw [marked, htokens, List.cons_append, List.append_assoc, List.singleton_append, read_list hflow hitems]
      simp [Nat.add_assoc, Nat.add_comm, Nat.add_left_comm]
    | true =>
      obtain ⟨rfl, hrest⟩ := hvalue rfl
      have htokens : nodeTokens true (.list mark anchor tag (item :: items)) =
          .item :: (nodeTokens false item ++ itemTokens items) := by simp [nodeTokens, itemTokens]
      simp only [htokens, List.length_cons, List.length_append] at hfuel
      have hitems := read_looseItems fuel handles hrest (item :: items) h.2.2
        (by simp only [itemTokens, List.length_cons, List.length_append]; omega)
      rw [itemTokens, List.cons_append] at hitems
      rw [marked, htokens, List.cons_append, read_looseList hitems]
      simp [Nat.add_assoc, Nat.add_comm, Nat.add_left_comm]
  | .map mark anchor tag [] => by
    intro indent inValue fuel handles admits rest h hfuel _ _
    obtain ⟨fuel, rfl⟩ := Nat.exists_eq_add_of_le' (show 2 ≤ fuel by omega)
    simpa [nodeTokens, marked, markedEntries, Nat.add_comm 2] using read_emptyMap rest
  | .map mark anchor tag (entry :: entries) => by
    intro indent inValue fuel handles admits rest h hfuel hflow _
    obtain ⟨fuel, rfl⟩ := Nat.exists_eq_succ_of_ne_zero (show fuel ≠ 0 by omega)
    have htokens : nodeTokens inValue (.map mark anchor tag (entry :: entries)) =
        .mapStart :: (entryTokens (entry :: entries) ++ [.blockEnd]) := by simp [nodeTokens]
    simp only [htokens, List.length_cons, List.length_append, List.length_nil] at hfuel
    have hentries := read_entries fuel handles rest (entry :: entries) h.2.2 (by omega)
    rw [marked, htokens, List.cons_append, List.append_assoc, List.singleton_append, read_map hflow hentries]
    simp [Nat.add_assoc, Nat.add_comm, Nat.add_left_comm]

/-- Items are read from their tokens up to the end of the list. -/
theorem read_items {indent : Nat} (fuel : Nat) (handles : Handles) (rest : List Token) : ∀ items : List (Node ι),
    LegibleItems indent items → 4 * (itemTokens items).length + 1 ≤ fuel →
      readItems fuel handles (itemTokens items ++ .blockEnd :: rest) = .ok (markedItems (rest.length + 1) items, rest)
  | [], _, hfuel => by
    obtain ⟨fuel, rfl⟩ := Nat.exists_eq_succ_of_ne_zero (show fuel ≠ 0 by omega)
    rw [itemTokens, List.nil_append, readItems]
    rfl
  | item :: items, h, hfuel => by
    simp only [itemTokens, List.length_cons, List.length_append] at hfuel
    obtain ⟨fuel, rfl⟩ := Nat.exists_eq_add_of_le' (show 2 ≤ fuel by omega)
    have hitem := read_node item indent false fuel handles .block (itemTokens items ++ .blockEnd :: rest) h.1
      (by omega) (by simp) (by simp)
    have hitems := read_items (fuel + 1) handles rest items h.2 (by omega)
    rw [itemTokens, List.cons_append, List.append_assoc, readItems,
      readUnless_node h.1 (by simp) (by simp [beginsNode]), hitem]
    simp [bind, Except.bind, pure, Except.pure, hitems, markedItems]

/-- Items without a beginning of their own are read from their tokens. -/
theorem read_looseItems {indent : Nat} (fuel : Nat) (handles : Handles) {rest : List Token}
    (hrest : rest.head? ≠ some .item) :
    ∀ items : List (Node ι), LegibleItems indent items → 4 * (itemTokens items).length + 1 ≤ fuel →
      readLooseItems fuel handles (itemTokens items ++ rest) = .ok (markedItems rest.length items, rest)
  | [], _, hfuel => by
    obtain ⟨fuel, rfl⟩ := Nat.exists_eq_succ_of_ne_zero (show fuel ≠ 0 by omega)
    rw [itemTokens, List.nil_append, readLooseItems]
    · rfl
    · rintro r rfl
      exact hrest rfl
  | item :: items, h, hfuel => by
    simp only [itemTokens, List.length_cons, List.length_append] at hfuel
    obtain ⟨fuel, rfl⟩ := Nat.exists_eq_add_of_le' (show 2 ≤ fuel by omega)
    have hitem := read_node item indent false fuel handles .block (itemTokens items ++ rest) h.1
      (by omega) (by simp) (by simp)
    have hitems := read_looseItems (fuel + 1) handles hrest items h.2 (by omega)
    rw [itemTokens, List.cons_append, List.append_assoc, readLooseItems,
      readUnless_node h.1 (by simp) (by simp [beginsNode]), hitem]
    simp [bind, Except.bind, pure, Except.pure, hitems, markedItems]

/-- Entries are read from their tokens up to the end of the map. -/
theorem read_entries {indent : Nat} (fuel : Nat) (handles : Handles) (rest : List Token) :
    ∀ entries : List (Node ι × Node ι),
    LegibleEntries indent entries → 4 * (entryTokens entries).length + 1 ≤ fuel →
      readEntries fuel handles (entryTokens entries ++ .blockEnd :: rest) =
        .ok (markedEntries (rest.length + 1) entries, rest)
  | [], _, hfuel => by
    obtain ⟨fuel, rfl⟩ := Nat.exists_eq_succ_of_ne_zero (show fuel ≠ 0 by omega)
    rw [entryTokens, List.nil_append, readEntries]
    rfl
  | (key, value) :: entries, h, hfuel => by
    simp only [entryTokens, List.length_cons, List.length_append] at hfuel
    obtain ⟨fuel, rfl⟩ := Nat.exists_eq_add_of_le' (show 3 ≤ fuel by omega)
    -- Behind a value stands the next key or the end of the map.
    have hnext : (entryTokens entries ++ .blockEnd :: rest).head? ≠ some .item := by
      cases entries <;> simp [entryTokens]
    have hkey := read_key handles
      (.value :: (nodeTokens (isSimpleKey key) value ++ (entryTokens entries ++ .blockEnd :: rest))) h.1
      (show 2 ≤ fuel + 2 by omega)
    have hvalue := read_node value indent (isSimpleKey key) fuel handles .looseList
      (entryTokens entries ++ .blockEnd :: rest) h.2.1 (by omega) (by simp) fun _ => ⟨rfl, hnext⟩
    have hentries := read_entries (fuel + 2) handles rest entries h.2.2 (by omega)
    have htext : entryTokens ((key, value) :: entries) ++ .blockEnd :: rest = .key :: (keyTokens key ++
        .value :: (nodeTokens (isSimpleKey key) value ++ (entryTokens entries ++ .blockEnd :: rest))) := by
      simp [entryTokens]
    rw [htext, readEntries, hkey]
    simp only [bind, Except.bind, pure, Except.pure]
    rw [readValue, readUnless_node h.2.1 (by simp) (by simp [beginsNode]), hvalue]
    simp [hentries, markedEntries, Nat.add_assoc, Nat.add_comm, Nat.add_left_comm]

end

end LayerLint.Yaml
