import LayerLint.Proofs.Yaml.ReadBack.Values
import LayerLint.Yaml.Cycle

/-!
# Values that are legible

Most values read back: a text without a next-line character does where its lines are not indented beyond the width of
lines (`isLegibleText_of_not_mem`), and as a key if it has no more than 102 characters (`isLegibleKey_of_short`).
A value is legible whatever its marks are (`isLegible_remark`).
-/

namespace LayerLint.Yaml

/-! ## Texts without next-line characters -/

/-- A text without a next-line character reads back. -/
theorem isLegibleText_of_not_mem {s : List Char} (h : '\u0085' ∉ s) {indent : Nat} (hindent : indent < lineWidth)
    (onOneLine : Bool) : isLegibleText indent s onOneLine := by
  rw [isLegibleText]
  split
  · simp [hindent]
  · simpa using h

section Length

variable {f : Folding} {s : List Char}

theorem length_escaped (c : Char) : (escaped c).length ≤ 10 := by
  have hcode : ∀ {width}, 0 < width → c.toNat < 16 ^ width → (capitalHex width c.toNat).length = width :=
    fun hwidth h => (capitalHex_spec hwidth h).1
  have hvalid : c.toNat < 0x110000 := by
    have h : c.toNat.isValidChar := c.valid
    rcases h with h | h <;> omega
  rw [escaped]
  split
  · exact Nat.le_of_ble_eq_true rfl
  · split
    · rw [List.length_cons, List.length_cons, hcode (by decide) (by omega)]
      decide
    · split
      · rw [List.length_cons, List.length_cons, hcode (by decide) (by omega)]
        decide
      · rw [List.length_cons, List.length_cons, hcode (by decide) (by omega)]

theorem length_doubleFrom (hfolds : f.folds = false) (column : Nat) (fresh first : Bool) :
    (doubleFrom f column fresh first s).length ≤ 10 * s.length := by
  induction s generalizing column fresh first with
  | nil => simp [doubleFrom]
  | cons c r ih =>
    have hc := length_escaped c
    rw [doubleFrom]
    simp only [hfolds, Bool.false_and, Bool.false_eq_true, if_false]
    split
    · have := ih (column + 1) false false
      simp only [List.length_cons]
      omega
    · have := ih (column + (escaped c).length) true false
      simp only [List.length_append, List.length_cons]
      omega

theorem length_flatMap_quote (s : List Char) :
    (s.flatMap fun c => if c = '\'' then ['\'', '\''] else [c]).length ≤ 2 * s.length := by
  induction s with
  | nil => simp
  | cons c r ih =>
    have hc : (if c = '\'' then ['\'', '\''] else [c]).length ≤ 2 := by split <;> simp
    rw [List.flatMap_cons, List.length_append, List.length_cons]
    omega

/-- A text on one line is not written in more characters than its escapes need. -/
theorem length_shown (hfolds : f.folds = false) (hbreak : ∀ c ∈ s, isBreak c = false) {tag : Tag} (column : Nat) :
    ((Style.choose tag s true).shown f column s).length ≤ 10 * s.length + 2 := by
  cases hstyle : Style.choose tag s true with
  | plain =>
    rw [Style.shown, plainText_inline hfolds hbreak]
    omega
  | single =>
    have := length_flatMap_quote s
    rw [Style.shown, singleQuoted, foldedFrom_inline hfolds hbreak (by simp)]
    simp only [Gap.pending, List.nil_append, List.cons_append, List.length_cons, List.length_append, List.length_nil]
    omega
  | double =>
    have := length_doubleFrom (s := s) hfolds (column + 1) false true
    simp only [Style.shown, doubleQuoted, List.cons_append, List.length_cons, List.length_append, List.length_nil]
    omega
  | block => cases (choose_block hstyle).2

end Length

/-- A text without a next-line character reads back as a key if it is short. -/
theorem isLegibleKey_of_short {t : String} (h : '\u0085' ∉ t.toList) (hshort : t.length ≤ 102) {indent : Nat}
    (hindent : indent + 2 < lineWidth) : (Scalar.text t).isLegibleKey indent := by
  rw [Scalar.isLegibleKey]
  split
  · rename_i hsimple
    rw [Bool.and_eq_true, decide_eq_true_eq]
    have hlegible := isLegibleText_of_not_mem h (by decide : 0 < lineWidth) true
    have hbreak : ∀ c ∈ t.toList, isBreak c = false := by
      rw [Scalar.toNode, isSimpleKey, Bool.and_eq_true, Bool.not_eq_true'] at hsimple
      exact fun c hc => by simpa using List.any_eq_false.mp hsimple.2 c hc
    refine ⟨hlegible, ?_⟩
    change (scalarText (.key indent) none .text t.toList true).length ≤ 1024
    rw [scalarText_eq (legibleText_of_isLegibleText hlegible).hidden]
    refine (length_shown rfl hbreak _).trans ?_
    rw [String.length_toList]
    omega
  · exact isLegibleText_of_not_mem h hindent false

/-! ## Plain data can be written -/

section Writable

variable {ι : Type}

theorem Scalar.isWritable_of_isBasic {s : Scalar} (h : s.IsBasic) : s.isWritable = true := by
  cases s with
  | int n => exact h
  | _ => rfl

mutual

theorem Value.isWritable_of_isBasic : ∀ {v : Value ι}, v.IsBasic → v.isWritable = true
  | .scalar .., h => by
    rw [Value.IsBasic] at h
    exact Scalar.isWritable_of_isBasic h
  | .list .., h => by
    rw [Value.IsBasic] at h
    exact areWritableItems_of_isBasic h
  | .map .., h => by
    rw [Value.IsBasic] at h
    exact areWritableEntries_of_isBasic h.2
  | .set .., h | .pairs .., h | .cycle .., h => by
    rw [Value.IsBasic] at h
    exact h.elim

theorem areWritableItems_of_isBasic : ∀ {items : List (Value ι)}, IsBasicItems items →
    Value.areWritableItems items = true
  | [], _ => rfl
  | item :: rest, h => by
    rw [IsBasicItems] at h
    rw [Value.areWritableItems, Value.isWritable_of_isBasic h.1, areWritableItems_of_isBasic h.2]
    rfl

theorem areWritableEntries_of_isBasic : ∀ {entries : List (Scalar × Value ι)}, IsBasicEntries entries →
    Value.areWritableEntries entries = true
  | [], _ => rfl
  | (key, value) :: rest, h => by
    rw [IsBasicEntries] at h
    rw [Value.areWritableEntries, Scalar.isWritable_of_isBasic h.1, Value.isWritable_of_isBasic h.2.1,
      areWritableEntries_of_isBasic h.2.2]
    rfl

end

end Writable

/-! ## Plain data has no cycles -/

section Cycles

variable {ι : Type}

theorem isBasic_of_mem {entries : List (Scalar × Value ι)} (h : IsBasicEntries entries) {e : Scalar × Value ι}
    (he : e ∈ entries) : e.2.IsBasic := by
  induction entries with
  | nil => cases he
  | cons entry rest ih =>
    rw [IsBasicEntries] at h
    rcases List.mem_cons.mp he with rfl | he
    · exact h.2.1
    · exact ih h.2.2 he

variable [DecidableEq ι] {mark : ι} {whole : Value ι}

mutual

theorem Value.replaceParts_of_isBasic : ∀ {v : Value ι}, v.IsBasic → v.replaceParts (Value.opened? mark whole) = v
  | .scalar .., _ => rfl
  | .list _ items, h => by
    rw [Value.IsBasic] at h
    exact congrArg _ (replaceItems_of_isBasic h)
  | .map _ entries, h => by
    rw [Value.IsBasic] at h
    exact congrArg _ (replaceEntries_of_isBasic h.2)
  | .set .., h | .pairs .., h | .cycle .., h => by
    rw [Value.IsBasic] at h
    exact h.elim

theorem replaceItems_of_isBasic : ∀ {items : List (Value ι)}, IsBasicItems items →
    Value.replaceItems (Value.opened? mark whole) items = items
  | [], _ => rfl
  | item :: rest, h => by
    rw [IsBasicItems] at h
    rw [Value.replaceItems, Value.replaceParts_of_isBasic h.1, replaceItems_of_isBasic h.2]

theorem replaceEntries_of_isBasic : ∀ {entries : List (Scalar × Value ι)}, IsBasicEntries entries →
    Value.replaceEntries (Value.opened? mark whole) entries = entries
  | [], _ => rfl
  | (key, value) :: rest, h => by
    rw [IsBasicEntries] at h
    rw [Value.replaceEntries, Value.replaceParts_of_isBasic h.2.1, replaceEntries_of_isBasic h.2.2]

end

theorem Value.viewOf_of_isBasic {part : Value ι} (h : part.IsBasic) : whole.viewOf part = part := by
  cases part with
  | cycle => exact h.elim
  | scalar | list | map | set | pairs => exact replaceParts_of_isBasic h

/-- Opening leaves plain data as it is. -/
theorem Value.openedWith_of_isBasic {inside : List (String × (Value ι → Value ι))}
    (hinside : ∀ field ∈ inside, ∀ {w : Value ι}, w.IsBasic → field.2 w = w) {v : Value ι} (h : v.IsBasic) :
    v.openedWith inside = v := by
  cases v with
  | scalar | list | set | pairs | cycle => rfl
  | map mark entries =>
    rw [Value.IsBasic] at h
    rw [openedWith]
    refine congrArg _ ((List.map_congr_left fun (key, value) he => ?_).trans (List.map_id' entries))
    have hvalue : value.IsBasic := isBasic_of_mem h.2 he
    dsimp only
    rw [viewOf_of_isBasic hvalue, openedAt]
    split
    · rw [hinside _ (List.mem_of_find?_eq_some ‹_›) hvalue]
    · rfl

end Cycles

/-! ## Marks -/

section Marks

variable {ι κ : Type} (f : ι → κ)

mutual

theorem isLegible_remark : ∀ (v : Value ι) (indent : Nat) (inValue : Bool),
    (v.remark f).isLegible indent inValue = v.isLegible indent inValue
  | .scalar .., _, _ => by simp only [Value.remark, Value.isLegible]
  | .list _ items, _, _ => by simp only [Value.remark, Value.isLegible, isLegibleItems_remark items]
  | .map _ entries, _, _ => by simp only [Value.remark, Value.isLegible, isLegibleEntries_remark entries]
  | .set .., _, _ | .pairs .., _, _ | .cycle .., _, _ => by simp only [Value.remark, Value.isLegible]

theorem isLegibleItems_remark : ∀ (items : List (Value ι)) (indent : Nat),
    isLegibleItems indent (Value.remarkItems f items) = isLegibleItems indent items
  | [], _ => rfl
  | item :: items, indent => by
    simp only [Value.remarkItems, isLegibleItems, isLegible_remark item, isLegibleItems_remark items]

theorem isLegibleEntries_remark : ∀ (entries : List (Scalar × Value ι)) (indent : Nat),
    isLegibleEntries indent (Value.remarkEntries f entries) = isLegibleEntries indent entries
  | [], _ => rfl
  | (key, value) :: entries, indent => by
    simp only [Value.remarkEntries, isLegibleEntries, isLegible_remark value, isLegibleEntries_remark entries]

end

mutual

theorem isBasic_remark : ∀ v : Value ι, (v.remark f).IsBasic ↔ v.IsBasic
  | .scalar .. => by simp only [Value.remark, Value.IsBasic]
  | .list _ items => by simp only [Value.remark, Value.IsBasic, isBasicItems_remark items]
  | .map _ entries => by
    simp only [Value.remark, Value.IsBasic, isBasicEntries_remark entries, distinctKeys_remarkEntries]
  | .set .. | .pairs .. | .cycle .. => by simp only [Value.remark, Value.IsBasic]

theorem isBasicItems_remark : ∀ items : List (Value ι), IsBasicItems (Value.remarkItems f items) ↔ IsBasicItems items
  | [] => Iff.rfl
  | item :: items => by
    simp only [Value.remarkItems, IsBasicItems, isBasic_remark item, isBasicItems_remark items]

theorem isBasicEntries_remark : ∀ entries : List (Scalar × Value ι),
    IsBasicEntries (Value.remarkEntries f entries) ↔ IsBasicEntries entries
  | [] => Iff.rfl
  | (key, value) :: entries => by
    simp only [Value.remarkEntries, IsBasicEntries, isBasic_remark value, isBasicEntries_remark entries]

end

mutual

theorem toNode_remark : ∀ v : Value ι, (v.remark f).toNode = v.toNode
  | .scalar .. => by simp only [Value.remark, Value.toNode]
  | .list _ items => by simp only [Value.remark, Value.toNode, toNodes_remark items]
  | .map _ entries => by simp only [Value.remark, Value.toNode, toEntryNodes_remark entries]
  | .set .. | .pairs .. | .cycle .. => by simp only [Value.remark, Value.toNode]

theorem toNodes_remark : ∀ items : List (Value ι), toNodes (Value.remarkItems f items) = toNodes items
  | [] => rfl
  | item :: items => by simp only [Value.remarkItems, toNodes, toNode_remark item, toNodes_remark items]

theorem toEntryNodes_remark : ∀ entries : List (Scalar × Value ι),
    toEntryNodes (Value.remarkEntries f entries) = toEntryNodes entries
  | [] => rfl
  | (key, value) :: entries => by
    simp only [Value.remarkEntries, toEntryNodes, toNode_remark value, toEntryNodes_remark entries]

end

mutual

/-- Nothing is met in a value without marks. -/
theorem encounter_unmarked : ∀ (v : Value ι) (e : Encounters), v.IsBasic → (v.remark fun _ => none).encounter e = e
  | .scalar _ s, e, _ => by simp only [Value.remark, Value.encounter, Encounters.meet, ite_self]
  | .list _ items, e, h => by
    rw [Value.IsBasic] at h
    simp only [Value.remark, Value.encounter, Encounters.knows, Encounters.meet, Option.any_none, Bool.false_eq_true,
      if_false, encounterItems_unmarked items e h]
  | .map _ entries, e, h => by
    rw [Value.IsBasic] at h
    simp only [Value.remark, Value.encounter, Encounters.knows, Encounters.meet, Option.any_none, Bool.false_eq_true,
      if_false, encounterEntries_unmarked entries e h.2]
  | .set .., _, h | .pairs .., _, h | .cycle .., _, h => by
    rw [Value.IsBasic] at h
    exact h.elim

theorem encounterItems_unmarked : ∀ (items : List (Value ι)) (e : Encounters), IsBasicItems items →
    encounterItems e (Value.remarkItems (fun _ => none) items) = e
  | [], _, _ => rfl
  | item :: items, e, h => by
    rw [Value.remarkItems, encounterItems, encounter_unmarked item e h.1, encounterItems_unmarked items e h.2]

theorem encounterEntries_unmarked : ∀ (entries : List (Scalar × Value ι)) (e : Encounters), IsBasicEntries entries →
    encounterEntries e (Value.remarkEntries (fun _ => none) entries) = e
  | [], _, _ => rfl
  | (key, value) :: entries, e, h => by
    rw [Value.remarkEntries, encounterEntries, encounter_unmarked value e h.2.1,
      encounterEntries_unmarked entries e h.2.2]

end

end Marks

/-! ## Clear values -/

/-- The value is plain data that reads back inside of a list or map at a column. -/
structure Value.IsClear {ι : Type} (indent : Nat) (v : Value ι) : Prop where
  basic : v.IsBasic
  legible : ∀ inValue, v.isLegible indent inValue

/-- No end of line of the text reads as another one: it has no next-line character. -/
def KeepsBreaks (s : String) : Prop := '\u0085' ∉ s.toList

instance (s : String) : Decidable (KeepsBreaks s) := inferInstanceAs (Decidable (_ ∉ _))

theorem keepsBreaks_ofList {l : List Char} (h : '\u0085' ∉ l) : KeepsBreaks (String.ofList l) := by
  rwa [KeepsBreaks, String.toList_ofList]

theorem keepsBreaks_append {s t : String} (hs : KeepsBreaks s) (ht : KeepsBreaks t) : KeepsBreaks (s ++ t) := by
  rw [KeepsBreaks, String.toList_append, List.mem_append]
  exact fun h => h.elim hs ht

theorem keepsBreaks_join {texts : List String} (h : ∀ t ∈ texts, KeepsBreaks t) : KeepsBreaks (String.join texts) := by
  rw [KeepsBreaks, String.toList_join, List.mem_flatMap]
  rintro ⟨t, ht, hc⟩
  exact h t ht hc

section Clear

variable {indent : Nat}

theorem isClear_text {s : String} (h : KeepsBreaks s) (hindent : indent + 2 < lineWidth) :
    (Value.text s).IsClear indent where
  basic := by simp [Value.text, Value.IsBasic, Scalar.IsBasic]
  legible _ := by
    rw [Value.text, Value.isLegible]
    exact isLegibleText_of_not_mem h hindent false

theorem isClear_bool (b : Bool) : (Value.bool b).IsClear indent where
  basic := by simp [Value.bool, Value.IsBasic, Scalar.IsBasic]
  legible _ := by simp [Value.bool, Value.isLegible, Scalar.isLegible]

theorem isClear_int {n : Int} (h : Text.isWritable n = true) : (Value.int n).IsClear indent where
  basic := by simpa [Value.int, Value.IsBasic, Scalar.IsBasic] using h
  legible _ := by simp [Value.int, Value.isLegible, Scalar.isLegible]

theorem isClear_list {items : List (Value Unit)} (h : ∀ item ∈ items, item.IsClear indent ∧ item.IsClear (indent + 2)) :
    (Value.list () items).IsClear indent := by
  have hitems : ∀ column, (∀ item ∈ items, item.IsClear column) → IsBasicItems items ∧ isLegibleItems column items := by
    intro column hitems
    clear h
    induction items with
    | nil => exact ⟨trivial, rfl⟩
    | cons item items ih =>
      obtain ⟨hitem, hitems⟩ := List.forall_mem_cons.mp hitems
      obtain ⟨hbasic, hlegible⟩ := ih hitems
      exact ⟨⟨hitem.basic, hbasic⟩, by rw [isLegibleItems, hitem.legible, hlegible]; rfl⟩
  obtain ⟨hbasic, hlegible⟩ := hitems indent fun item hitem => (h item hitem).1
  refine ⟨by rwa [Value.IsBasic], fun inValue => ?_⟩
  rw [Value.isLegible]
  split
  · exact hlegible
  · exact (hitems (indent + 2) fun item hitem => (h item hitem).2).2

theorem isClear_texts {texts : List String} (h : ∀ t ∈ texts, KeepsBreaks t) (hindent : indent + 4 < lineWidth) :
    (Value.texts texts).IsClear indent := by
  refine isClear_list fun item hitem => ?_
  obtain ⟨t, ht, rfl⟩ := List.mem_map.mp hitem
  exact ⟨isClear_text (h t ht) (by omega), isClear_text (h t ht) (by omega)⟩

/-- The texts are distinct short keys. -/
def AreShortKeys (keys : List String) : Prop := keys.Nodup ∧ ∀ key ∈ keys, KeepsBreaks key ∧ key.length ≤ 102

instance (keys : List String) : Decidable (AreShortKeys keys) := inferInstanceAs (Decidable (_ ∧ _))

theorem isClear_record {fields : List (String × Value Unit)} (hkeys : AreShortKeys (fields.map (·.1)))
    (hindent : indent + 4 < lineWidth) (h : ∀ field ∈ fields, field.2.IsClear (indent + 2)) :
    (Value.record fields).IsClear indent := by
  have hentries : DistinctKeys (fields.map fun field => (Scalar.text field.1, field.2)) ∧
      IsBasicEntries (fields.map fun field => (Scalar.text field.1, field.2)) ∧
        isLegibleEntries (indent + 2) (fields.map fun field => (Scalar.text field.1, field.2)) := by
    induction fields with
    | nil => exact ⟨.nil, trivial, rfl⟩
    | cons field fields ih =>
      obtain ⟨hhead, hnodup⟩ := List.nodup_cons.mp hkeys.1
      obtain ⟨hkey, hshort⟩ := List.forall_mem_cons.mp hkeys.2
      obtain ⟨hvalue, h⟩ := List.forall_mem_cons.mp h
      obtain ⟨hdistinct, hbasic, hlegible⟩ := ih ⟨hnodup, hshort⟩ h
      refine ⟨List.pairwise_cons.mpr ⟨?_, hdistinct⟩, ⟨trivial, hvalue.basic, hbasic⟩, ?_⟩
      · intro e he
        obtain ⟨other, hother, rfl⟩ := List.mem_map.mp he
        have hne : field.1 ≠ other.1 := fun heq => hhead (List.mem_map.mpr ⟨other, hother, heq.symm⟩)
        simp [hne]
      · rw [List.map_cons, isLegibleEntries, isLegibleKey_of_short hkey.1 hkey.2 (by omega), hvalue.legible, hlegible]
        rfl
  refine ⟨?_, fun _ => ?_⟩
  · rw [Value.record, Value.IsBasic]
    exact ⟨hentries.1, hentries.2.1⟩
  · rw [Value.record, Value.isLegible]
    exact hentries.2.2

end Clear

end LayerLint.Yaml
