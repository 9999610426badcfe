import LayerLint.Proofs.Json.Grammar
import LayerLint.Proofs.Yaml.ReadBack.Number
import LayerLint.Proofs.Yaml.ReadBack.Quoted

/-!
# Documents read back

The text of a value is a document with this value (`isDocument_toText`), if its floating-point numbers are finite. It
is shown for each kind of value that its text reads as the value, whatever follows: a character behind its escapes
(`readsChar_escapedChar`), a number in its shortest digits (`readsNumber_numberText`), and an array or an object by what
stands in it (`reads_render`). Only what stands behind a number must not go on with it (`EndsNumeral`).
-/

namespace LayerLint.Json

open Binary64 (Digits)
open Yaml (DecimalText digitsValue)
open Yaml.DecimalText (exponentChars exponentValue)

variable {rest : List Char}

/-! ## Strings -/

theorem readsUnit_hexDigits {unit : Nat} (h : unit < 0x10000) (rest : List Char) :
    ReadsUnit (Text.hexDigits 4 unit ++ rest) unit rest := by
  obtain ⟨hlength, hhex, hvalue⟩ := Yaml.hexDigits_spec Yaml.spellsHex_id (by decide : 0 < 4) h
  rw [List.map_id] at hlength hhex hvalue
  have htake : (Text.hexDigits 4 unit ++ rest).take 4 = Text.hexDigits 4 unit := List.take_left' hlength
  rw [← htake] at hlength hhex hvalue
  exact ⟨hlength, hhex, hvalue, List.drop_left' (by rwa [htake] at hlength)⟩

theorem IsSurrogatePair.units_lt {high low : Nat} {c : Char} (h : IsSurrogatePair high low c) :
    high < 0x10000 ∧ low < 0x10000 := by
  obtain ⟨⟨-, hhigh⟩, ⟨-, hlow⟩, -⟩ := h
  exact ⟨by omega, by omega⟩

/-- A character that one unit is too small for has two. -/
theorem exists_units {c : Char} (h : ¬ c.toNat < 0x10000) :
    ∃ high low, units c = [high, low] ∧ IsSurrogatePair high low c := by
  have hvalid : c.toNat < 0x110000 := by
    have hvalid : c.toNat.isValidChar := c.valid
    rcases hvalid with h | h <;> omega
  exact ⟨_, _, by rw [units, if_neg h], by omega, by omega, by omega⟩

/-- The escapes of the units of a character. -/
theorem readsChar_units (c : Char) (rest : List Char) :
    ReadsChar (((units c).flatMap fun unit => '\\' :: 'u' :: Text.hexDigits 4 unit) ++ rest) c rest := by
  by_cases hsmall : c.toNat < 0x10000
  · rw [units, if_pos hsmall, List.flatMap_singleton]
    exact .unit (readsUnit_hexDigits hsmall rest)
  · obtain ⟨high, low, hunits, hpair⟩ := exists_units hsmall
    simp only [hunits, List.flatMap_cons, List.flatMap_nil, List.append_nil, List.cons_append, List.append_assoc]
    exact .pair (readsUnit_hexDigits hpair.units_lt.1 _) (readsUnit_hexDigits hpair.units_lt.2 rest) hpair

/-- **A character of a string reads back**, whatever follows. -/
theorem readsChar_escapedChar (c : Char) (rest : List Char) : ReadsChar (escapedChar c ++ rest) c rest := by
  rw [escapedChar]
  -- the characters that have a letter
  iterate 7
    split
    · rename_i hc
      subst hc
      exact .letter (by decide)
  split
  · rename_i hquote hescape _ _ _ _ _ hprintable
    exact .plain hprintable.1 hquote hescape
  · exact readsChar_units c rest

theorem readsChars_escaped (text rest : List Char) :
    ReadsChars (text.flatMap escapedChar ++ '"' :: rest) text rest := by
  induction text with
  | nil => exact .close
  | cons c text ih =>
    rw [List.flatMap_cons, List.append_assoc]
    exact .char (readsChar_escapedChar c _) ih

theorem toList_stringText (text : String) (rest : List Char) :
    (stringText text).toList ++ rest = '"' :: (text.toList.flatMap escapedChar ++ '"' :: rest) := by
  simp [stringText]

/-! ## Numbers -/

/-- The text does not go on with the number before it. -/
def EndsNumeral (rest : List Char) : Prop := ∀ c ∈ rest.head?, c.isDigit = false ∧ c ∉ ['.', 'e', 'E']

/-- The places of a number behind a point. -/
def pointChars (places : List Char) : List Char := if places = [] then [] else '.' :: places

theorem value_eq {digits : List Char} (h : ∀ c ∈ digits, c.isDigit) : value digits = digitsValue 10 digits :=
  (Yaml.digitsValue_eq h).symm

theorem readsExponent_chars {exponent : Option (Bool × List Char)}
    (h : ∀ e ∈ exponent, e.2 ≠ [] ∧ ∀ c ∈ e.2, c.isDigit) (hrest : EndsNumeral rest) :
    ReadsExponent (exponentChars exponent ++ rest) (exponent.map fun e => exponentValue (some e)) rest := by
  cases exponent with
  | none =>
    refine .none fun c hc => ?_
    have hc := (hrest c hc).2
    simp only [List.mem_cons, not_or] at hc ⊢
    exact hc.2
  | some e =>
    obtain ⟨negative, digits⟩ := e
    obtain ⟨hne, hdigits⟩ := h _ rfl
    have hread : ReadsDigits (digits ++ rest) digits rest := ⟨rfl, hne, hdigits, fun c hc => (hrest c hc).1⟩
    rw [Option.map_some, exponentValue, ← value_eq hdigits]
    cases negative with
    | true =>
      change ReadsExponent ('e' :: (minus true ++ (digits ++ rest))) (some (signed true (value digits))) rest
      exact .power (.head _) hread
    | false => exact .plus (.head _) hread

/-- What stands behind digits is no digit. -/
theorem head?_exponentChars (exponent : Option (Bool × List Char)) (hrest : EndsNumeral rest) :
    ∀ c ∈ (exponentChars exponent ++ rest).head?, c.isDigit = false ∧ c ≠ '.' := by
  cases exponent with
  | none => exact fun c hc => ⟨(hrest c hc).1, fun hpoint => (hrest c hc).2 (hpoint ▸ .head _)⟩
  | some e =>
    rintro c ⟨⟩
    decide

/-- **A numeral reads back** from its digits before and behind the point and its exponent. -/
theorem readsNumber_chars {whole places : List Char} {exponent : Option (Bool × List Char)} (negative : Bool)
    (hne : whole ≠ []) (hdigits : ∀ c ∈ whole ++ places, c.isDigit) (hzero : HasNoSpareZero whole)
    (hexponent : ∀ e ∈ exponent, e.2 ≠ [] ∧ ∀ c ∈ e.2, c.isDigit) (hrest : EndsNumeral rest) :
    ReadsNumber (minus negative ++ (whole ++ (pointChars places ++ (exponentChars exponent ++ rest))))
      (numeral negative whole places (exponent.map fun e => exponentValue (some e))) rest := by
  obtain ⟨hwhole, hplaces⟩ := List.forall_mem_append.mp hdigits
  have hhead := head?_exponentChars exponent hrest
  refine .numeral ⟨rfl, hne, hwhole, ?_⟩ hzero ?_ (readsExponent_chars hexponent hrest)
  · rw [pointChars]
    split
    · exact fun c hc => (hhead c hc).1
    · rintro c ⟨⟩
      decide
  · rw [pointChars]
    split
    · rename_i hnone
      subst hnone
      exact .none fun hpoint => (hhead _ hpoint).2 rfl
    · rename_i hsome
      exact .point ⟨rfl, hsome, hplaces, fun c hc => (hhead c hc).1⟩

theorem hasNoSpareZero_toDigits (n : Nat) : HasNoSpareZero (Nat.toDigits 10 n) := by
  intro hhead
  by_cases hn : n = 0
  · rw [hn]
    rfl
  · obtain ⟨c, r, htext, hc, -⟩ := Yaml.toDigits_cons hn
    rw [htext] at hhead
    exact absurd (Option.some.inj hhead) hc

/-- **A whole number reads back.** -/
theorem readsNumber_toString (n : Int) (hrest : EndsNumeral rest) :
    ReadsNumber ((toString n).toList ++ rest) (.int n) rest := by
  have hdigits : ∀ c ∈ Nat.toDigits 10 n.natAbs ++ [], c.isDigit := by
    rw [List.append_nil]
    exact fun c hc => Yaml.isDigit_of_mem_toDigits hc
  have hvalue : signed (decide (n < 0)) (value (Nat.toDigits 10 n.natAbs)) = n := by
    rw [value, Nat.ofDigitChars_toDigits (by decide) (by decide), signed]
    by_cases hneg : n < 0
    · rw [decide_eq_true hneg, if_pos rfl, Int.ofNat_natAbs_of_nonpos hneg.le, neg_neg]
    · rw [decide_eq_false hneg, if_neg (by decide), Int.natAbs_of_nonneg (not_lt.mp hneg)]
  have hnumeral : numeral (decide (n < 0)) (Nat.toDigits 10 n.natAbs) [] none = .int n := by
    rw [numeral, if_pos ⟨rfl, rfl⟩, hvalue]
  have hchars : (toString n).toList ++ rest =
      minus (decide (n < 0)) ++ (Nat.toDigits 10 n.natAbs ++ (pointChars [] ++ (exponentChars none ++ rest))) := by
    rw [Yaml.toList_toString, Yaml.intDigits]
    simp [minus, pointChars, exponentChars]
  rw [hchars, ← hnumeral]
  exact readsNumber_chars _ Nat.toDigits_ne_nil hdigits (hasNoSpareZero_toDigits _) (by simp) hrest

/-- The text reads as a floating-point number, the nearest to a decimal fraction of the same value as the digits. -/
def ReadsDecimal (s : List Char) (d : Digits) (rest : List Char) : Prop :=
  ∃ (digits : Nat) (power : Int), (digits : ℚ) * 10 ^ power = d.value ∧
    ∀ negative, ReadsNumber (minus negative ++ (s ++ rest)) (.number (Binary64.ofDecimal negative digits power)) rest

/-- A numeral with a point or an exponent stands for a floating-point number. -/
theorem numeral_of_fraction {negative : Bool} {whole places : List Char} {exponent : Option Int}
    (h : places ≠ [] ∨ exponent ≠ none) : numeral negative whole places exponent =
      .number (Binary64.ofDecimal negative (value (whole ++ places)) (exponent.getD 0 - places.length)) := by
  rw [numeral, if_neg]
  tauto

/-- Digits around a point read back. -/
theorem readsDecimal_positional {d : Digits} (hd : d.coefficient ≠ 0 ∨ d.exponent = 0) (hrest : EndsNumeral rest) :
    ReadsDecimal (Binary64.positional d).toList d rest := by
  obtain ⟨t, hchars, hvalue, hzero⟩ := Yaml.positional_eq d
  refine ⟨t.coefficient, t.power, hvalue, fun negative => ?_⟩
  have hread := readsNumber_chars negative t.whole_ne t.digits (hzero hd) t.exponent_digits hrest
  have hpower : (t.exponent.map fun e => exponentValue (some e)).getD 0 = exponentValue t.exponent := by
    cases t.exponent <;> rfl
  rw [numeral_of_fraction (.inl t.places_ne), value_eq t.digits, hpower] at hread
  rw [hchars, DecimalText.chars]
  simpa [pointChars, t.places_ne, DecimalText.coefficient, DecimalText.power] using hread

/-- One digit before the point and an exponent read back. -/
theorem readsDecimal_scientific (d : Digits) (hrest : EndsNumeral rest) :
    ReadsDecimal (Binary64.scientific d).toList d rest := by
  obtain ⟨c, r, exponent, htext, hchars, hexponent, hne, hexponentDigits⟩ := Yaml.toList_scientific d
  have hdigits : ∀ x ∈ [c] ++ r, x.isDigit := by
    rw [List.singleton_append, ← htext]
    exact fun x hx => Yaml.isDigit_of_mem_toDigits hx
  refine ⟨d.coefficient, d.exponent, rfl, fun negative => ?_⟩
  have hzero : HasNoSpareZero [c] := fun hhead => by simpa using hhead
  have hread := readsNumber_chars negative (List.cons_ne_nil c []) hdigits hzero
    (fun e he => Option.some.inj he ▸ ⟨hne, hexponentDigits⟩) hrest
  have hvalue : value ([c] ++ r) = d.coefficient := by
    rw [value_eq hdigits, List.singleton_append, ← htext, Yaml.digitsValue_toDigits]
  rw [numeral_of_fraction (.inr (by simp)), hvalue, Option.map_some, Option.getD_some, hexponent,
    add_sub_cancel_right] at hread
  rw [hchars]
  simpa [pointChars] using hread

/-- Digits read back in whichever way they are written. -/
theorem readsDecimal_of_ite {d : Digits} (hd : d.coefficient ≠ 0 ∨ d.exponent = 0) (hrest : EndsNumeral rest)
    (isNear : Prop) [Decidable isNear] :
    ReadsDecimal (if isNear then Binary64.positional d else Binary64.scientific d).toList d rest := by
  split
  · exact readsDecimal_positional hd hrest
  · exact readsDecimal_scientific d hrest

/-- The shortest digits of a number read as the number. -/
theorem ReadsDecimal.readsNumber {s : List Char} {m : Nat} {e : Int}
    (h : ReadsDecimal s (Binary64.dropZeros 400 (Binary64.shortest m e)) rest) (hcanonical : Binary64.IsCanonical m e)
    (negative : Bool) : ReadsNumber (minus negative ++ (s ++ rest)) (.number (.finite negative m e)) rest := by
  obtain ⟨digits, power, hvalue, hread⟩ := h
  rw [← Binary64.ofDecimal_of_value hcanonical hvalue negative]
  exact hread negative

/-- **A finite floating-point number reads back** from its shortest digits. -/
theorem readsNumber_numberText {x : Binary64} (hx : x.IsNumber) (hrest : EndsNumeral rest) :
    ReadsNumber ((numberText x).toList ++ rest) (.number x) rest := by
  cases x with
  | finite negative m e =>
    have hsign : (if negative then "-" else "").toList = minus negative := by cases negative <;> rfl
    change ReadsNumber ((Binary64.toText (.finite negative m e)).toList ++ rest) _ rest
    rw [Binary64.toText, String.toList_append, hsign, List.append_assoc]
    exact (readsDecimal_of_ite (Binary64.shortest_ne_zero hx) hrest _).readsNumber hx negative
  | infinite negative => cases hx
  | nan => cases hx

/-! ## Values -/

/-- The floating-point numbers in the value are finite. -/
inductive IsFinite : Json → Prop
  | null : IsFinite .null
  | bool (b : Bool) : IsFinite (.bool b)
  | int (n : Int) : IsFinite (.int n)
  | number {x : Binary64} (h : x.IsNumber) : IsFinite (.number x)
  | string (text : String) : IsFinite (.string text)
  | array {items : List Json} (h : ∀ item ∈ items, IsFinite item) : IsFinite (.array items)
  | object {fields : List (String × Json)} (h : ∀ field ∈ fields, IsFinite field.2) : IsFinite (.object fields)

theorem skip_newline (level : Nat) (s : List Char) : skip ((newline level).toList ++ s) = skip s := by
  have hblank : ∀ c ∈ (newline level).toList, isBlank c = true := by
    intro c hc
    simp only [newline, String.toList_append, String.toList_ofList, List.mem_append] at hc
    rcases hc with hc | hc
    · exact List.all_eq_true.mp (by decide : "\n".toList.all isBlank = true) c hc
    · exact List.eq_of_mem_replicate hc ▸ rfl
  exact List.dropWhile_append_of_pos hblank

/-- A value begins with no blank. -/
theorem Reads.skip_eq {s : List Char} {item : Json} (h : Reads s item rest) : skip s = s := by
  obtain ⟨c, behind, rfl, hc, -⟩ := h.exists_cons
  exact List.dropWhile_cons_of_neg (by simp [hc])

theorem ReadsItems.skip_eq {s : List Char} {items : List Json} (h : ReadsItems s items rest) : skip s = s := by
  cases h with
  | last hitem | more hitem => exact hitem.skip_eq

theorem ReadsFields.skip_eq {s : List Char} {fields : List (String × Json)} (h : ReadsFields s fields rest) :
    skip s = s := by
  cases h with
  | last hfield | more hfield =>
    cases hfield
    rfl

theorem endsNumeral_comma (rest : List Char) : EndsNumeral (',' :: rest) := by
  rintro _ ⟨⟩
  decide

/-- The text goes on with the end of an array or an object, perhaps behind blanks. -/
structure Closes (close : Char) (behind rest : List Char) : Prop where
  ends : EndsNumeral behind
  close : skip behind = close :: rest

theorem closes_newline (level : Nat) {close : Char} (hclose : isBlank close = false) (rest : List Char) :
    Closes close ((newline level).toList ++ close :: rest) rest where
  ends := by
    rw [newline, String.toList_append, List.append_assoc]
    rintro _ ⟨⟩
    decide
  close := by
    rw [skip_newline, skip, List.dropWhile_cons_of_neg (by simp [hclose])]

/-- The name of a field reads back where its value does. -/
theorem readsField_of_reads {name item : String} {value : Json} (h : Reads (item.toList ++ rest) value rest) :
    ReadsField ((stringText name ++ ": " ++ item).toList ++ rest) (name, value) rest := by
  have hchars : (stringText name ++ ": " ++ item).toList ++ rest =
      '"' :: (name.toList.flatMap escapedChar ++ '"' :: ':' :: ' ' :: (item.toList ++ rest)) := by
    rw [String.toList_append, String.toList_append, List.append_assoc, List.append_assoc, toList_stringText]
    rfl
  rw [hchars]
  refine .field (readsChars_escaped _ _) rfl ?_
  have hskip : skip (' ' :: (item.toList ++ rest)) = item.toList ++ rest := h.skip_eq
  rw [hskip]
  exact h

section Bracketed

variable {left right : String} {first last : Char}

theorem toList_bracketed_nil (hleft : left.toList = [first]) (hright : right.toList = [last]) (level : Nat)
    (rest : List Char) : (bracketed left right level []).toList ++ rest = first :: last :: rest := by
  simp [bracketed, hleft, hright]

theorem toList_bracketed (hleft : left.toList = [first]) (hright : right.toList = [last]) (level : Nat)
    {parts : List String} (hparts : parts ≠ []) (rest : List Char) :
    (bracketed left right level parts).toList ++ rest = first :: ((newline (level + 1)).toList ++
      ((Text.join ("," ++ newline (level + 1)) parts).toList ++ ((newline level).toList ++ last :: rest))) := by
  simp [bracketed, hleft, hright, hparts]

/-- A part, the separator behind it and the next parts. -/
theorem toList_join_cons_cons (level : Nat) (part next : String) (parts : List String) (behind : List Char) :
    (Text.join ("," ++ newline level) (part :: next :: parts)).toList ++ behind = part.toList ++
      ',' :: ((newline level).toList ++ ((Text.join ("," ++ newline level) (next :: parts)).toList ++ behind)) := by
  simp [Text.join_cons_cons]

theorem brackets : "[".toList = ['['] ∧ "]".toList = [']'] := by decide

theorem braces : "\x7b".toList = ['\x7b'] ∧ "\x7d".toList = ['\x7d'] := by decide

end Bracketed

mutual

/-- **The text of a value reads as the value**, at any level of indentation and whatever follows that does not go on
with a number. -/
theorem reads_render (level : Nat) : ∀ {item : Json}, item.IsFinite → ∀ {rest : List Char}, EndsNumeral rest →
    Reads ((render level item).toList ++ rest) item rest
  | .null, _, rest, _ => by
    rw [render]
    exact .nullWord
  | .bool b, _, rest, _ => by
    rw [render]
    cases b with
    | true => exact .trueWord
    | false => exact .falseWord
  | .int n, _, rest, hrest => by
    rw [render]
    exact .number (readsNumber_toString n hrest)
  | .number x, .number hx, rest, hrest => by
    rw [render]
    exact .number (readsNumber_numberText hx hrest)
  | .string text, _, rest, _ => by
    rw [render, toList_stringText]
    exact .string (readsChars_escaped _ rest)
  | .array [], _, rest, _ => by
    rw [render, renderItems, toList_bracketed_nil brackets.1 brackets.2]
    exact .emptyArray rfl
  | .array (item :: items), .array h, rest, _ => by
    have hread := readsItems_render (level + 1) (List.cons_ne_nil item items) h
      (closes_newline level (by decide : isBlank ']' = false) rest)
    rw [render, toList_bracketed brackets.1 brackets.2 level (by simp [renderItems])]
    refine .array ?_
    rw [skip_newline, hread.skip_eq]
    exact hread
  | .object [], _, rest, _ => by
    rw [render, renderFields, toList_bracketed_nil braces.1 braces.2]
    exact .emptyObject rfl
  | .object (field :: fields), .object h, rest, _ => by
    have hread := readsFields_render (level + 1) (List.cons_ne_nil field fields) h
      (closes_newline level (by decide : isBlank '\x7d' = false) rest)
    rw [render, toList_bracketed braces.1 braces.2 level (by simp [renderFields])]
    refine .object ?_
    rw [skip_newline, hread.skip_eq]
    exact hread

theorem readsItems_render (level : Nat) : ∀ {items : List Json}, items ≠ [] → (∀ item ∈ items, IsFinite item) →
    ∀ {behind rest : List Char}, Closes ']' behind rest →
      ReadsItems ((Text.join ("," ++ newline level) (renderItems level items)).toList ++ behind) items rest
  | [], hne, _, _, _, _ => absurd rfl hne
  | [item], _, h, behind, rest, ⟨hbehind, hclose⟩ => by
    rw [renderItems, renderItems, Text.join, String.intercalate_singleton]
    exact .last (reads_render level (h item (.head _)) hbehind) hclose
  | item :: next :: items, _, h, behind, rest, hclose => by
    have hmore : ∀ i ∈ next :: items, IsFinite i := fun i hi => h i (.tail _ hi)
    have hread := readsItems_render level (List.cons_ne_nil _ _) hmore hclose
    rw [renderItems, renderItems, toList_join_cons_cons, ← renderItems]
    refine .more (reads_render level (h item (.head _)) (endsNumeral_comma _)) rfl ?_
    rw [skip_newline, hread.skip_eq]
    exact hread

theorem readsFields_render (level : Nat) : ∀ {fields : List (String × Json)}, fields ≠ [] →
    (∀ field ∈ fields, IsFinite field.2) → ∀ {behind rest : List Char}, Closes '\x7d' behind rest →
      ReadsFields ((Text.join ("," ++ newline level) (renderFields level fields)).toList ++ behind) fields rest
  | [], hne, _, _, _, _ => absurd rfl hne
  | [(name, item)], _, h, behind, rest, ⟨hbehind, hclose⟩ => by
    rw [renderFields, renderFields, Text.join, String.intercalate_singleton]
    exact .last (readsField_of_reads (reads_render level (h (name, item) (.head _)) hbehind)) hclose
  | (name, item) :: (name', item') :: fields, _, h, behind, rest, hclose => by
    have hitem := fun rest => reads_render level (h (name, item) (.head _)) (endsNumeral_comma rest)
    have hmore : ∀ field ∈ (name', item') :: fields, IsFinite field.2 := fun field hfield => h field (.tail _ hfield)
    have hread := readsFields_render level (List.cons_ne_nil _ _) hmore hclose
    rw [renderFields, renderFields, toList_join_cons_cons, ← renderFields]
    refine .more (readsField_of_reads (hitem _)) rfl ?_
    rw [skip_newline, hread.skip_eq]
    exact hread

end

/-- **The text of a value is a document with the value.** -/
theorem isDocument_toText {document : Json} (h : document.IsFinite) : IsDocument document.toText document := by
  have hread : Reads ((render 0 document).toList ++ []) document [] := reads_render 0 h nofun
  rw [List.append_nil] at hread
  refine ⟨[], ?_, rfl⟩
  rw [toText, hread.skip_eq]
  exact hread

example : (Json.string "é𝄞\n").toText = "\"\\u00e9\\ud834\\udd1e\\n\"" := by decide

end LayerLint.Json
