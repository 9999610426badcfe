import LayerLint.Yaml.Value.OfNode
import LayerLint.Proofs.Yaml.Keys
import LayerLint.Proofs.Yaml.ReadBack.Document
import LayerLint.Proofs.Yaml.ReadBack.Number

/-!
# Values read back

A value of maps, lists, truth values, numbers and texts in which no part occurs twice (`Value.IsBasic`) is written as a
node without names (`Value.toNode`). Where the texts can be read back (`Value.isLegible`), the node is legible
(`legible_toNode`), and the value of the node with its marks is the value again (`valueOf_marked`). So a map is read
from its text again (`ofText?_render`). Parts that are shared are written with names (`ofValue_sharedMap`), and a text
that is not legible may be read as another one (`ofText?_render_nextLine`).
-/

namespace LayerLint.Yaml

variable {ι : Type}

/-! ## Values whose texts read back -/

/-- A text reads back where its lines are indented so far: it has no next-line character unless it is written in double
quotes, and there no escape before a space far to the right. -/
def isLegibleText (indent : Nat) (s : List Char) (onOneLine : Bool) : Bool :=
  match Style.choose .text s onOneLine with
  | .double => onOneLine || decide (indent < lineWidth) || !hasNeighbours (!isVerbatim ·) (· == ' ') s
  | _ => !s.contains '\u0085'

/-- A scalar reads back as a value. -/
def Scalar.isLegible (indent : Nat) : Scalar → Bool
  | .text t => isLegibleText indent t.toList false
  | _ => true

/-- A scalar reads back as the key of a map at a column. On one line a key has to be followed by its colon within 1024
characters. -/
def Scalar.isLegibleKey (indent : Nat) (s : Scalar) : Bool :=
  match s with
  | .text t =>
    if isSimpleKey (s.toNode none) then
      isLegibleText 0 t.toList true && decide ((keyText indent (s.toNode none)).length ≤ 1024)
    else isLegibleText (indent + 2) t.toList false
  | _ => true

mutual

/-- The texts of a value read back inside of a list or map at a column, perhaps as the value of an entry that stands on
one line with its key. -/
def Value.isLegible (indent : Nat) (inValue : Bool) : Value ι → Bool
  | .scalar _ s => s.isLegible (indent + 2)
  | .list _ items => isLegibleItems (if inValue then indent else indent + 2) items
  | .map _ entries => isLegibleEntries (indent + 2) entries
  | .set .. | .pairs .. | .cycle .. => true

/-- The texts of items of a list at a column read back. -/
def isLegibleItems (indent : Nat) : List (Value ι) → Bool
  | [] => true
  | item :: rest => item.isLegible indent false && isLegibleItems indent rest

/-- The texts of entries of a map at a column read back. -/
def isLegibleEntries (indent : Nat) : List (Scalar × Value ι) → Bool
  | [] => true
  | (key, value) :: rest =>
    key.isLegibleKey indent && value.isLegible indent (isSimpleKey (key.toNode none)) && isLegibleEntries indent rest

end

/-! ## Plain data -/

mutual

/-- The value is made of maps, lists, nothing, truth values, numbers and texts, and no map has a key twice. -/
def Value.IsBasic : Value ι → Prop
  | .scalar _ s => s.IsBasic
  | .list _ items => IsBasicItems items
  | .map _ entries => DistinctKeys entries ∧ IsBasicEntries entries
  | .set .. | .pairs .. | .cycle .. => False

/-- Items are such values. -/
def IsBasicItems : List (Value ι) → Prop
  | [] => True
  | item :: rest => item.IsBasic ∧ IsBasicItems rest

/-- Keys and values are such values. -/
def IsBasicEntries : List (Scalar × Value ι) → Prop
  | [] => True
  | (key, value) :: rest => key.IsBasic ∧ value.IsBasic ∧ IsBasicEntries rest

end

mutual

/-- The node of a value without names. -/
def Value.toNode : Value ι → Node Unit
  | .scalar _ s => s.toNode none
  | .list _ items => .list () none .list (toNodes items)
  | .map _ entries => .map () none .map (toEntryNodes entries)
  | .set .. | .pairs .. | .cycle .. => default

/-- The nodes of items without names. -/
def toNodes : List (Value ι) → List (Node Unit)
  | [] => []
  | item :: rest => item.toNode :: toNodes rest

/-- The nodes of entries without names. -/
def toEntryNodes : List (Scalar × Value ι) → List (Node Unit × Node Unit)
  | [] => []
  | (key, value) :: rest => (key.toNode none, value.toNode) :: toEntryNodes rest

end

/-! ## Legible nodes -/

theorem ofPlain_of_choose {tag : Tag} {s : List Char} {onOneLine : Bool} (h : Style.choose tag s onOneLine = .plain) :
    Tag.ofPlain s = tag := by
  simp only [Style.choose] at h
  split at h
  · split at h <;> cases h
  · split at h
    · rename_i hplain
      simp only [Bool.and_eq_true, beq_iff_eq] at hplain
      exact hplain.1.1
    · split at h <;> cases h

theorem legibleText_of_isLegibleText {indent : Nat} {s : List Char} {onOneLine : Bool}
    (h : isLegibleText indent s onOneLine) : LegibleText indent .text s onOneLine where
  hidden := by
    rw [hidesTag]
    split
    · rename_i hplain
      exact beq_iff_eq.mpr (ofPlain_of_choose hplain)
    · rfl
  nonempty hplain := by
    rintro rfl
    have := ofPlain_of_choose hplain
    exact absurd this (by decide)
  noNextLine hdouble := by
    rw [isLegibleText] at h
    split at h
    · rename_i hstyle
      exact absurd hstyle hdouble
    · simpa using h
  keptSpaces hdouble honOneLine := by
    subst honOneLine
    rw [isLegibleText, hdouble] at h
    simpa using h

theorem choose_of_isPlain {s : Scalar} (h : s.IsPlain) (onOneLine : Bool) :
    Style.choose s.written.1 s.written.2.toList onOneLine = .plain := by
  have hempty : s.written.2.toList.isEmpty = false := by simpa using h.nonempty
  simp [Style.choose, prefersBlock, h.notText, h.tag, h.allows, hempty]

theorem legibleText_of_isPlain {s : Scalar} (h : s.IsPlain) (indent : Nat) (onOneLine : Bool) :
    LegibleText indent s.written.1 s.written.2.toList onOneLine where
  hidden := by simp [hidesTag, choose_of_isPlain h, h.tag]
  nonempty _ := h.nonempty
  noNextLine _ hc := absurd (isOrdinary_of_allowsPlain h.allows _ hc).2 (by decide)
  keptSpaces hdouble := by simp [choose_of_isPlain h] at hdouble

theorem legible_scalar {s : Scalar} {indent : Nat} (h : s.IsBasic) (hlegible : s.isLegible indent) :
    LegibleText indent s.written.1 s.written.2.toList false := by
  obtain ⟨t, rfl⟩ | hplain := Scalar.isPlain h
  · exact legibleText_of_isLegibleText hlegible
  · exact legibleText_of_isPlain hplain indent false

theorem legibleKey_toNode {s : Scalar} {indent : Nat} (h : s.IsBasic) (hlegible : s.isLegibleKey indent) :
    (s.toNode none).LegibleKey indent := by
  obtain ⟨t, rfl⟩ | hplain := Scalar.isPlain h
  · rw [Scalar.isLegibleKey] at hlegible
    refine ⟨rfl, ?_⟩
    split at hlegible
    · rename_i hsimple
      rw [Bool.and_eq_true, decide_eq_true_eq] at hlegible
      rw [if_pos hsimple]
      exact hlegible.imp_left legibleText_of_isLegibleText
    · rename_i hsimple
      rw [if_neg hsimple]
      exact legibleText_of_isLegibleText hlegible
  · refine ⟨rfl, ?_⟩
    split
    · rename_i hsimple
      refine ⟨legibleText_of_isPlain hplain 0 true, ?_⟩
      have htext : keyText indent (s.toNode none) = s.written.2.toList := by
        rw [Scalar.toNode, keyText, scalarText_eq (legibleText_of_isPlain hplain 0 true).hidden,
          choose_of_isPlain hplain]
        exact plainText_inline rfl fun c hc => (isOrdinary_of_allowsPlain hplain.allows c hc).2
      have hshort : s.written.2.length < maxKey := by
        simp only [Scalar.toNode, isSimpleKey, Bool.and_eq_true, decide_eq_true_eq] at hsimple
        omega
      rw [htext, String.length_toList]
      exact Nat.le_trans (Nat.le_of_lt hshort) (by decide)
    · exact legibleText_of_isPlain hplain _ _

mutual

/-- **The node of a value with legible texts is legible.** -/
theorem legible_toNode {indent : Nat} {inValue : Bool} :
    ∀ v : Value ι, v.IsBasic → v.isLegible indent inValue → v.toNode.Legible indent inValue
  | .scalar mark s, h, hlegible => by
    rw [Value.IsBasic] at h
    rw [Value.isLegible] at hlegible
    exact ⟨rfl, legible_scalar h hlegible⟩
  | .list mark items, h, hlegible => by
    rw [Value.IsBasic] at h
    rw [Value.isLegible] at hlegible
    exact ⟨rfl, rfl, legible_toNodes items h hlegible⟩
  | .map mark entries, h, hlegible => by
    rw [Value.IsBasic] at h
    rw [Value.isLegible] at hlegible
    exact ⟨rfl, rfl, legible_toEntryNodes entries h.2 hlegible⟩
  | .set .., h, _ | .pairs .., h, _ | .cycle .., h, _ => by
    rw [Value.IsBasic] at h
    exact h.elim

theorem legible_toNodes {indent : Nat} : ∀ items : List (Value ι), IsBasicItems items → isLegibleItems indent items →
    LegibleItems indent (toNodes items)
  | [], _, _ => trivial
  | item :: items, h, hlegible => by
    rw [isLegibleItems, Bool.and_eq_true] at hlegible
    exact ⟨legible_toNode item h.1 hlegible.1, legible_toNodes items h.2 hlegible.2⟩

theorem legible_toEntryNodes {indent : Nat} : ∀ entries : List (Scalar × Value ι), IsBasicEntries entries →
    isLegibleEntries indent entries → LegibleEntries indent (toEntryNodes entries)
  | [], _, _ => trivial
  | (key, value) :: entries, h, hlegible => by
    rw [isLegibleEntries, Bool.and_eq_true, Bool.and_eq_true] at hlegible
    exact ⟨legibleKey_toNode h.1 hlegible.1.1, legible_toNode value h.2.1 hlegible.1.2,
      legible_toEntryNodes entries h.2.2 hlegible.2⟩

end

/-! ## Values of nodes -/

section Anchors

mutual

theorem anchors_marked : ∀ (inValue : Bool) (after : Nat) (node : Node ι), (marked inValue after node).anchors = []
  | _, _, .scalar .. => by rw [marked, Node.anchors]; rfl
  | _, _, .alias _ => by rw [marked, Node.anchors]
  | _, _, .list _ _ _ items => by
    rw [marked, Node.anchors, anchors_markedItems]
    rfl
  | _, _, .map _ _ _ entries => by
    rw [marked, Node.anchors, anchors_markedEntries]
    rfl

theorem anchors_markedItems : ∀ (after : Nat) (items : List (Node ι)),
    Node.anchorsOfItems (markedItems after items) = []
  | _, [] => by rw [markedItems, Node.anchorsOfItems]
  | after, item :: items => by
    rw [markedItems, Node.anchorsOfItems, anchors_marked, anchors_markedItems]
    rfl

theorem anchors_markedEntries : ∀ (after : Nat) (entries : List (Node ι × Node ι)),
    Node.anchorsOfEntries (markedEntries after entries) = []
  | _, [] => by rw [markedEntries, Node.anchorsOfEntries]
  | after, (key, value) :: entries => by
    rw [markedEntries, Node.anchorsOfEntries, anchors_marked, anchors_marked, anchors_markedEntries]
    rfl

end

mutual

theorem size_marked : ∀ (inValue : Bool) (after : Nat) (node : Node ι), (marked inValue after node).size = node.size
  | _, _, .scalar .. => by rw [marked, Node.size, Node.size]
  | _, _, .alias _ => by rw [marked, Node.size, Node.size]
  | _, _, .list _ _ _ items => by rw [marked, Node.size, Node.size, size_markedItems]
  | _, _, .map _ _ _ entries => by rw [marked, Node.size, Node.size, size_markedEntries]

theorem size_markedItems : ∀ (after : Nat) (items : List (Node ι)),
    Node.sizeOfItems (markedItems after items) = Node.sizeOfItems items
  | _, [] => by rw [markedItems]; rfl
  | after, item :: items => by rw [markedItems, Node.sizeOfItems, Node.sizeOfItems, size_marked, size_markedItems]

theorem size_markedEntries : ∀ (after : Nat) (entries : List (Node ι × Node ι)),
    Node.sizeOfEntries (markedEntries after entries) = Node.sizeOfEntries entries
  | _, [] => by rw [markedEntries]; rfl
  | after, (key, value) :: entries => by
    rw [markedEntries, Node.sizeOfEntries, Node.sizeOfEntries, size_marked, size_marked, size_markedEntries]

end

end Anchors

/-- Entries with distinct keys are entries of a map as they are. -/
theorem entriesOf_eq_self {κ : Type} {entries : List (Scalar × Value κ)} (h : DistinctKeys entries) :
    entriesOf entries = entries := by
  suffices hfold : ∀ before, DistinctKeys (before ++ entries) →
      entries.foldl (fun found e => insertEntry e.1 e.2 found) before = before ++ entries from hfold [] h
  clear h
  induction entries with
  | nil => simp
  | cons e rest ih =>
    intro before h
    have hne := (List.pairwise_append.mp h).2.2
    have hnew : insertEntry e.1 e.2 before = before ++ [e] := insertEntry_of_new fun b hb => hne b hb e (.head _)
    rw [List.foldl_cons, hnew, ih _ (by simpa using h)]
    simp

/-- On the way through some parts of a value all marks are new, and they lie between two bounds where those met before
do not lie below the upper one. -/
def MeetsBetween (low high : Nat) (meets : Encounters → Encounters) : Prop :=
  ∀ e, (∀ m ∈ e.met, high ≤ m) → (meets e).again = e.again ∧ ∀ m ∈ (meets e).met, low ≤ m

theorem MeetsBetween.stay {low high : Nat} (h : low ≤ high) : MeetsBetween low high id :=
  fun _ he => ⟨rfl, fun m hm => Nat.le_trans h (he m hm)⟩

theorem MeetsBetween.mono {low low' high high' : Nat} {meets : Encounters → Encounters}
    (h : MeetsBetween low high meets)
    (hlow : low' ≤ low) (hhigh : high ≤ high') : MeetsBetween low' high' meets := fun e he => by
  obtain ⟨hagain, hmet⟩ := h e fun m hm => Nat.le_trans hhigh (he m hm)
  exact ⟨hagain, fun m hm => Nat.le_trans hlow (hmet m hm)⟩

theorem MeetsBetween.comp {low middle high : Nat} {first next : Encounters → Encounters}
    (hfirst : MeetsBetween middle high first) (hnext : MeetsBetween low middle next) :
    MeetsBetween low high (next ∘ first) := fun e he => by
  obtain ⟨hagain, hmet⟩ := hfirst e he
  obtain ⟨hagain', hmet'⟩ := hnext _ hmet
  exact ⟨hagain'.trans hagain, hmet'⟩

/-- A new mark is met for the first time. -/
theorem MeetsBetween.meet {low mark : Nat} {meets : Encounters → Encounters} (h : MeetsBetween low mark meets) :
    MeetsBetween low (mark + 1) fun e =>
      if e.knows (some mark) then e.meet (some mark) else meets (e.meet (some mark)) := by
  intro e he
  have hnew : mark ∉ e.met := fun hmem => absurd (he mark hmem) (by omega)
  have hmeet : e.meet (some mark) = { e with met := mark :: e.met } := by
    rw [Encounters.meet, if_neg (by simpa using hnew)]
  have hknows : e.knows (some mark) = false := by simpa [Encounters.knows] using hnew
  obtain ⟨hagain, hmet⟩ := h (e.meet (some mark)) fun m hm => by
    rw [hmeet] at hm
    rcases List.mem_cons.mp hm with rfl | hm
    · exact Nat.le_refl _
    · exact Nat.le_of_succ_le (he m hm)
  simp only [hknows, Bool.false_eq_true, if_false]
  exact ⟨hagain.trans (by rw [hmeet]), hmet⟩

theorem resolve_map (anchors : Anchors) (mark : Nat) (anchor : Option String) (tag : Tag)
    (entries : List (Node Nat × Node Nat)) :
    (Node.map mark anchor tag entries).resolve anchors = .map mark anchor tag entries := rfl

/-- A scalar is the value of its node. -/
theorem scalarOf_written {s : Scalar} (h : s.IsBasic) (anchors : Anchors) (fuel mark : Nat) (anchor : Option String) :
    scalarOf anchors fuel mark s.written.1 (.scalar mark anchor s.written.1 s.written.2) = .ok s := by
  have hvalue : Scalar.ofText mark s.written.1 s.written.2 = .ok s := by
    obtain ⟨t, rfl⟩ | hplain := Scalar.isPlain h
    · rfl
    · exact hplain.value mark
  rw [scalarOf]
  cases fuel <;> exact hvalue

/-- The tag of a scalar is neither that of a collection nor one for keys alone. -/
theorem tag_written {s : Scalar} (h : s.IsBasic) :
    s.written.1.isCollection = false ∧ s.written.1 ≠ .merge ∧ s.written.1 ≠ .value := by
  cases s <;> first | exact h.elim | exact ⟨rfl, nofun, nofun⟩

/-- A scalar is the key that its node stands for. -/
theorem keyOf_written {s : Scalar} (h : s.IsBasic) (anchors : Anchors) (fuel mark : Nat) (anchor : Option String) :
    keyOf anchors fuel (.scalar mark anchor s.written.1 s.written.2) = .ok s := by
  rw [keyOf.eq_def]
  split
  · rename_i heq
    exact absurd (congrArg Node.tag? heq) (by simp [Node.tag?, tag_written h])
  · rename_i heq
    obtain ⟨rfl, rfl, rfl, rfl⟩ := Node.scalar.inj heq
    exact scalarOf_written h anchors fuel mark anchor
  · rename_i heq
    cases heq
  · rename_i heq
    cases heq
  · rename_i heq
    cases heq

/-- Entries whose keys are scalars merge nothing. -/
theorem isMergeEntry_markedEntries {entries : List (Scalar × Value ι)} (h : IsBasicEntries entries) (after : Nat) :
    ∀ entry ∈ markedEntries after (toEntryNodes entries), isMergeEntry [] entry = false := by
  induction entries with
  | nil => simp [toEntryNodes, markedEntries]
  | cons entry rest ih =>
    obtain ⟨key, value⟩ := entry
    rw [toEntryNodes, markedEntries, List.forall_mem_cons]
    refine ⟨?_, ih h.2.2⟩
    simp [isMergeEntry, Scalar.toNode, marked, Node.resolve, Node.tag?, tag_written h.1]

theorem mergedEntries_markedEntries {entries : List (Scalar × Value ι)} (h : IsBasicEntries entries)
    (after fuel mark : Nat) :
    mergedEntries [] fuel [] mark (markedEntries after (toEntryNodes entries)) =
      .ok (markedEntries after (toEntryNodes entries)) := by
  have hmerge := isMergeEntry_markedEntries h after
  have hown : (markedEntries after (toEntryNodes entries)).filter (!isMergeEntry [] ·) =
      markedEntries after (toEntryNodes entries) :=
    List.filter_eq_self.mpr fun entry hentry => by rw [hmerge entry hentry]; rfl
  have hnone : (markedEntries after (toEntryNodes entries)).filter (isMergeEntry []) = [] :=
    List.filter_eq_nil_iff.mpr fun entry hentry => by rw [hmerge entry hentry]; simp
  cases fuel with
  | zero => rw [mergedEntries, hown]
  | succ fuel =>
    rw [mergedEntries, hown, hnone]
    rfl

theorem distinctKeys_remarkEntries {κ : Type} (f : ι → κ) {entries : List (Scalar × Value ι)} :
    DistinctKeys (Value.remarkEntries f entries) ↔ DistinctKeys entries := by
  rw [remarkEntries_eq_map, DistinctKeys, List.pairwise_map]
  rfl

mutual

/-- **The value of the node of a value, with its marks, is the value again.** -/
theorem valueOf_marked : ∀ (v : Value ι) (inValue : Bool) (after fuel level : Nat) (opened : List Nat), v.IsBasic →
    v.toNode.size ≤ fuel → (∀ m ∈ opened, (nodeTokens inValue v.toNode).length + after + 1 ≤ m) →
    ∃ w, valueOf [] fuel opened level (marked inValue after v.toNode) = .ok w ∧ w.plain = v.plain ∧
      MeetsBetween after ((nodeTokens inValue v.toNode).length + after + 1) fun e => (w.remark some).encounter e
  | .scalar mark s, inValue, after, fuel, level, opened, h, hfuel, hopened => by
    rw [Value.IsBasic] at h
    obtain ⟨fuel, rfl⟩ := Nat.exists_eq_succ_of_ne_zero (show fuel ≠ 0 by
      rw [Value.toNode, Scalar.toNode, Node.size] at hfuel
      omega)
    refine ⟨.scalar (after + 1) s, ?_, rfl, ?_⟩
    · rw [Value.toNode, Scalar.toNode, marked, valueOf]
      simp [Node.resolve, tag_written h, scalarOf_written h, Except.map, Except.mapError]
    · have hnameless : s.isNameable = false := by cases s <;> first | exact h.elim | rfl
      have hmeets : (fun e => ((Value.scalar (after + 1) s).remark some).encounter e) = id := by
        funext e
        simp [Value.remark, Value.encounter, hnameless]
      rw [hmeets]
      exact .stay (by omega)
  | .list mark items, inValue, after, fuel, level, opened, h, hfuel, hopened => by
    rw [Value.IsBasic] at h
    simp only [Value.toNode, Node.size] at hfuel hopened ⊢
    obtain ⟨fuel, rfl⟩ := Nat.exists_eq_succ_of_ne_zero (show fuel ≠ 0 by omega)
    generalize hmark : (nodeTokens inValue (.list () none .list (toNodes items))).length + after = mark at hopened ⊢
    generalize hinner : (if inValue then after else after + 1) = inner
    have hbelow : after ≤ inner ∧ (itemTokens (toNodes items)).length + inner ≤ mark := by
      have hlength := length_itemTokens_le inValue () (toNodes items)
      cases inValue with
      | true =>
        rw [if_pos rfl] at hlength hinner
        omega
      | false =>
        rw [if_neg Bool.false_ne_true] at hlength hinner
        omega
    have hnew : mark ∉ opened := fun hmem => absurd (hopened mark hmem) (by omega)
    obtain ⟨ws, hws, hplain, hmeets⟩ := valueOf_markedItems items inner fuel (level + 1) (mark :: opened) h (by omega)
      (List.forall_mem_cons.mpr
        ⟨hbelow.2, fun m hm => Nat.le_trans hbelow.2 (Nat.le_of_succ_le (hopened m hm))⟩)
    refine ⟨.list mark ws, ?_, ?_, ?_⟩
    · rw [marked, hmark, hinner, valueOf]
      simp [Node.resolve, hnew, hws, Except.map]
    · simp [Value.plain, Value.remark, hplain]
    · simp only [Value.remark, Value.encounter]
      exact (hmeets.mono hbelow.1 hbelow.2).meet
  | .map mark entries, inValue, after, fuel, level, opened, h, hfuel, hopened => by
    rw [Value.IsBasic] at h
    simp only [Value.toNode, Node.size] at hfuel hopened ⊢
    obtain ⟨fuel, rfl⟩ := Nat.exists_eq_succ_of_ne_zero (show fuel ≠ 0 by omega)
    generalize hmark : (nodeTokens inValue (.map () none .map (toEntryNodes entries))).length + after = mark
      at hopened ⊢
    have hbelow : (entryTokens (toEntryNodes entries)).length + (after + 1) ≤ mark := by
      have hlength := length_entryTokens_le inValue () (toEntryNodes entries)
      omega
    have hnew : mark ∉ opened := fun hmem => absurd (hopened mark hmem) (by omega)
    obtain ⟨ws, hws, hplain, hmeets⟩ := valueOf_markedEntries entries (after + 1) fuel (level + 1)
      (mark :: opened) h.2 (by omega) (List.forall_mem_cons.mpr
        ⟨hbelow, fun m hm => Nat.le_trans hbelow (Nat.le_of_succ_le (hopened m hm))⟩)
    have hdistinct : DistinctKeys ws := by
      rw [← distinctKeys_remarkEntries fun _ => (), hplain, distinctKeys_remarkEntries]
      exact h.1
    refine ⟨.map mark ws, ?_, ?_, ?_⟩
    · rw [marked, hmark, valueOf]
      simp only [resolve_map, List.contains_iff_mem, hnew, if_false, mergedEntries_markedEntries h.2]
      rw [Except.mapError]
      simp only [Except.bind, hws, Except.map, entriesOf_eq_self hdistinct]
    · simp [Value.plain, Value.remark, hplain]
    · simp only [Value.remark, Value.encounter]
      exact (hmeets.mono (Nat.le_succ after) hbelow).meet
  | .set .., _, _, _, _, _, h, _, _ | .pairs .., _, _, _, _, _, h, _, _ | .cycle .., _, _, _, _, _, h, _, _ => by
    rw [Value.IsBasic] at h
    exact h.elim

/-- The values of items. -/
theorem valueOf_markedItems : ∀ (items : List (Value ι)) (after fuel level : Nat) (opened : List Nat),
    IsBasicItems items → Node.sizeOfItems (toNodes items) ≤ fuel →
    (∀ m ∈ opened, (itemTokens (toNodes items)).length + after ≤ m) →
    ∃ ws, gather ((markedItems after (toNodes items)).map (valueOf [] fuel opened level)) = .ok ws ∧
      Value.remarkItems (fun _ => ()) ws = Value.remarkItems (fun _ => ()) items ∧
      MeetsBetween after ((itemTokens (toNodes items)).length + after) fun e =>
        encounterItems e (Value.remarkItems some ws)
  | [], after, fuel, level, opened, _, _, _ => by
    refine ⟨[], rfl, rfl, ?_⟩
    have hmeets : (fun e => encounterItems e (Value.remarkItems some [])) = id := by
      funext e
      simp [Value.remarkItems, encounterItems]
    rw [hmeets]
    exact .stay (by omega)
  | item :: items, after, fuel, level, opened, h, hfuel, hopened => by
    simp only [toNodes, Node.sizeOfItems, itemTokens, List.length_cons, List.length_append] at hfuel hopened ⊢
    obtain ⟨w, hw, hplain, hmeets⟩ := valueOf_marked item false
      ((itemTokens (toNodes items)).length + after) fuel level opened h.1
      (by omega) fun m hm => Nat.le_trans (by omega) (hopened m hm)
    obtain ⟨ws, hws, hplains, hrest⟩ := valueOf_markedItems items after fuel level opened h.2 (by omega) fun m hm =>
      Nat.le_trans (by omega) (hopened m hm)
    refine ⟨w :: ws, ?_, ?_, ?_⟩
    · rw [markedItems, List.map_cons, hw, gather, hws]
      rfl
    · rw [Value.remarkItems, Value.remarkItems, hplains]
      exact congrArg (· :: _) hplain
    · simp only [Value.remarkItems, encounterItems]
      exact (hmeets.mono (Nat.le_refl _) (by omega)).comp hrest

/-- The values of entries. -/
theorem valueOf_markedEntries : ∀ (entries : List (Scalar × Value ι)) (after fuel level : Nat) (opened : List Nat),
    IsBasicEntries entries → Node.sizeOfEntries (toEntryNodes entries) ≤ fuel →
    (∀ m ∈ opened, (entryTokens (toEntryNodes entries)).length + after ≤ m) →
    ∃ ws, gather ((markedEntries after (toEntryNodes entries)).map fun entry =>
        both ((keyOf [] fuel (entry.1.resolve [])).mapError fun cause => (⟨level, cause⟩ : Fault))
          (valueOf [] fuel opened level entry.2)) = .ok ws ∧
      Value.remarkEntries (fun _ => ()) ws = Value.remarkEntries (fun _ => ()) entries ∧
      MeetsBetween after ((entryTokens (toEntryNodes entries)).length + after)
        fun e => encounterEntries e (Value.remarkEntries some ws)
  | [], after, fuel, level, opened, _, _, _ => by
    refine ⟨[], rfl, rfl, ?_⟩
    have hmeets : (fun e => encounterEntries e (Value.remarkEntries some [])) = id := by
      funext e
      simp [Value.remarkEntries, encounterEntries]
    rw [hmeets]
    exact .stay (by omega)
  | (key, value) :: entries, after, fuel, level, opened, h, hfuel, hopened => by
    simp only [toEntryNodes, Node.sizeOfEntries, entryTokens, List.length_cons, List.length_append] at hfuel hopened ⊢
    obtain ⟨w, hw, hplain, hmeets⟩ := valueOf_marked value (isSimpleKey (key.toNode none))
      ((entryTokens (toEntryNodes entries)).length + after) fuel level opened
      h.2.1 (by omega) fun m hm => Nat.le_trans (by omega) (hopened m hm)
    obtain ⟨ws, hws, hplains, hrest⟩ := valueOf_markedEntries entries after fuel level opened h.2.2 (by omega) fun m
      hm => Nat.le_trans (by omega) (hopened m hm)
    refine ⟨(key, w) :: ws, ?_, ?_, ?_⟩
    · rw [markedEntries, List.map_cons, hw, gather, hws]
      simp only [Scalar.toNode, marked, Node.resolve, keyOf_written h.1]
      rfl
    · rw [Value.remarkEntries, Value.remarkEntries, hplains]
      exact congrArg (fun v => (key, v) :: _) hplain
    · simp only [Value.remarkEntries, encounterEntries]
      exact (hmeets.mono (Nat.le_refl _) (by omega)).comp hrest

end

/-! ## Documents of values -/

/-- No list or map of a value occurs in several places. -/
def Value.IsUnshared (v : Value (Option Nat)) : Prop := (v.encounter .start).again = []

theorem anchorName?_nil (mark : Option Nat) : anchorName? [] mark = none := by cases mark <;> rfl

mutual

theorem nodeFrom_nil : ∀ (v : Value (Option Nat)) (met : List Nat), v.IsBasic → (nodeFrom [] met v).1 = v.toNode
  | .scalar mark s, met, _ => by
    simp [nodeFrom, anchorName?_nil, Value.toNode]
  | .list mark items, met, h => by
    rw [Value.IsBasic] at h
    simp [nodeFrom, anchorName?_nil, Value.toNode, itemNodes_nil items _ h]
  | .map mark entries, met, h => by
    rw [Value.IsBasic] at h
    simp [nodeFrom, anchorName?_nil, Value.toNode, entryNodes_nil entries _ h.2]
  | .set .., _, h | .pairs .., _, h | .cycle .., _, h => by
    rw [Value.IsBasic] at h
    exact h.elim

theorem itemNodes_nil : ∀ (items : List (Value (Option Nat))) (met : List Nat), IsBasicItems items →
    (itemNodes [] met items).1 = toNodes items
  | [], _, _ => rfl
  | item :: items, met, h => by
    rw [itemNodes, toNodes, ← nodeFrom_nil item met h.1, ← itemNodes_nil items _ h.2]

theorem entryNodes_nil : ∀ (entries : List (Scalar × Value (Option Nat))) (met : List Nat), IsBasicEntries entries →
    (entryNodes [] met entries).1 = toEntryNodes entries
  | [], _, _ => rfl
  | (key, value) :: entries, met, h => by
    rw [entryNodes, toEntryNodes, ← nodeFrom_nil value met h.2.1, ← entryNodes_nil entries _ h.2.2]

end

/-- A value in which nothing is shared is written without names. -/
theorem ofValue_unshared {v : Value (Option Nat)} (h : v.IsBasic) (hshared : v.IsUnshared) : Node.ofValue v =
    v.toNode := by
  rw [Node.ofValue, hshared, nodeFrom_nil v [] h]

/-- A map with one list in two places. -/
def sharedMap : Value (Option Nat) := .map none [(.text "a", .list (some 0) []), (.text "b", .list (some 0) [])]

/-- **What is shared is written with a name**, and not as it would be by itself. -/
theorem ofValue_sharedMap : sharedMap.IsBasic ∧ ¬ sharedMap.IsUnshared ∧
    (Node.ofValue sharedMap).render = "a: &id001 []\nb: *id001\n" ∧ sharedMap.toNode.render = "a: []\nb: []\n" := by
  refine ⟨?_, ?_, by decide +kernel, by decide +kernel⟩
  · simp [sharedMap, Value.IsBasic, IsBasicEntries, IsBasicItems, DistinctKeys, Scalar.IsBasic]
  · rw [Value.IsUnshared]
    decide +kernel

/-- **A map is read from its text again**, with remarks before and behind it, and no part of what is read is shared. -/
theorem ofText?_render {header remarks : String} {mark : Option Nat} {entries : List (Scalar × Value (Option Nat))}
    (hne : entries ≠ []) (h : (Value.map mark entries).IsBasic) (hshared : (Value.map mark entries).IsUnshared)
    (hlegible : isLegibleEntries 0 entries) (hheader : IsRemarks header) (hremarks : IsRemarks remarks) :
    (header ++ (Node.ofValue (.map mark entries)).render ++ remarks).toList.all isWritten ∧
      ∃ w, Value.ofText? (header ++ (Node.ofValue (.map mark entries)).render ++ remarks) = .ok (some w) ∧
        w.plain = (Value.map mark entries).plain ∧ (w.remark some).IsUnshared := by
  rw [ofValue_unshared h hshared]
  obtain ⟨hwritten, after, hdocument⟩ := document?_render ()
    (by cases entries <;> simp_all [toEntryNodes]) (legible_toEntryNodes entries h.2 hlegible) hheader hremarks
  obtain ⟨w, hw, hplain, hmeets⟩ := valueOf_marked (Value.map mark entries) false after
    (2 * (Value.map mark entries).toNode.size + 2) 0 [] h (by omega) (by simp)
  have hvalue : Value.ofNode (marked false after (Value.map mark entries).toNode) = .ok w := by
    rw [Value.ofNode, anchors_marked, size_marked, hw]
    rfl
  refine ⟨hwritten, w, ?_, hplain, (hmeets .start (by simp [Encounters.start])).1⟩
  rw [Value.toNode] at hvalue ⊢
  rw [Value.ofText?, hdocument]
  simp only [bind, Except.bind, hvalue]
  rfl

/-- The text of a map that has one entry. -/
def Value.soleText? : Value ι → Option String
  | .map _ [(_, .scalar _ (.text t))] => some t
  | _ => none

theorem Value.soleText?_plain (v : Value ι) : v.plain.soleText? = v.soleText? := by
  cases v with
  | map mark entries =>
    match entries with
    | [] => rfl
    | _ :: _ :: _ => simp [plain, remark, remarkEntries, soleText?]
    | [(_, .scalar _ s)] => cases s <;> rfl
    | [(_, .list ..)] | [(_, .map ..)] | [(_, .set ..)] | [(_, .pairs ..)] | [(_, .cycle ..)] => rfl
  | scalar | list | set | pairs | cycle => rfl

/-- A map with a next-line character in a text on two lines. -/
def nextLineMap : Value (Option Nat) := .map none [(.text "a", .scalar none (.text "b\u0085c\n"))]

/-- **The texts have to be legible**: a next-line character in a block is read as a line feed. -/
theorem ofText?_render_nextLine : nextLineMap.IsBasic ∧ nextLineMap.IsUnshared ∧
    ¬ ∃ w, Value.ofText? (Node.ofValue nextLineMap).render = .ok (some w) ∧ w.plain = nextLineMap.plain := by
  refine ⟨?_, rfl, ?_⟩
  · simp [nextLineMap, Value.IsBasic, IsBasicEntries, DistinctKeys, Scalar.IsBasic]
  · rintro ⟨w, hw, hplain⟩
    have hread : ((Value.ofText? (Node.ofValue nextLineMap).render).toOption.bind id).bind (·.soleText?) =
        some "b\nc\n" := by decide +kernel
    have htext : w.soleText? = some "b\u0085c\n" := by
      rw [← w.soleText?_plain, hplain]
      rfl
    rw [hw] at hread
    exact absurd (hread.symm.trans htext) (by decide)

end LayerLint.Yaml
