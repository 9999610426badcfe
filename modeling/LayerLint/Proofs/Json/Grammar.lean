import LayerLint.Json.Basic
import LayerLint.Proofs.Text.Search
import LayerLint.Yaml.Token.Quoted

/-!
# The grammar of JSON

What a text stands for. `Reads s value rest` says that a text begins with a value and goes on with the rest, and
`IsDocument text value` that a text is a document: a value with nothing but blanks around it. Every part of the grammar
tells where it ends, so a text begins with at most one value (`Reads.unique`) and is a document of at most one
(`IsDocument.unique`).

A surrogate that stands alone is no character, so a text with an escape of one is no document here.
-/

namespace LayerLint.Json

/-! ## Blanks -/

/-- What may stand around the parts of a document. -/
def isBlank (c : Char) : Bool := c ∈ [' ', '\t', '\n', '\r']

/-- The text behind the blanks at its beginning. -/
def skip (s : List Char) : List Char := s.dropWhile isBlank

/-! ## Strings -/

/-- The letters that stand behind a backslash for a character. -/
def letterEscapes : List (Char × Char) :=
  [('"', '"'), ('\\', '\\'), ('/', '/'), ('b', '\x08'), ('f', '\x0c'), ('n', '\n'), ('r', '\r'), ('t', '\t')]

/-- The text begins with four hexadecimal digits, capital or small, for a unit of UTF-16. -/
structure ReadsUnit (s : List Char) (unit : Nat) (rest : List Char) : Prop where
  length : (s.take 4).length = 4
  hex : (s.take 4).all Text.isHex
  value : Yaml.hexValue (s.take 4) = unit
  rest : s.drop 4 = rest

/-- Two units stand together for a character that one is too small for. -/
structure IsSurrogatePair (high low : Nat) (c : Char) : Prop where
  high_range : 0xD800 ≤ high ∧ high < 0xDC00
  low_range : 0xDC00 ≤ low ∧ low < 0xE000
  code : c.toNat = 0x10000 + (high - 0xD800) * 0x400 + (low - 0xDC00)

/-- The text begins with a character of a string. -/
inductive ReadsChar : List Char → Char → List Char → Prop
  | plain {c : Char} {rest : List Char} (hcontrol : 0x20 ≤ c.toNat) (hquote : c ≠ '"') (hescape : c ≠ '\\') :
      ReadsChar (c :: rest) c rest
  | letter {letter c : Char} {rest : List Char} (h : letterEscapes.lookup letter = some c) :
      ReadsChar ('\\' :: letter :: rest) c rest
  | unit {c : Char} {s rest : List Char} (h : ReadsUnit s c.toNat rest) : ReadsChar ('\\' :: 'u' :: s) c rest
  | pair {high low : Nat} {c : Char} {s next rest : List Char} (hhigh : ReadsUnit s high ('\\' :: 'u' :: next))
      (hlow : ReadsUnit next low rest) (hc : IsSurrogatePair high low c) : ReadsChar ('\\' :: 'u' :: s) c rest

/-- The text begins with the characters of a string and the quote behind them. -/
inductive ReadsChars : List Char → List Char → List Char → Prop
  | close {rest : List Char} : ReadsChars ('"' :: rest) [] rest
  | char {c : Char} {text s next rest : List Char} (hc : ReadsChar s c next) (htext : ReadsChars next text rest) :
      ReadsChars s (c :: text) rest

/-! ## Numbers -/

/-- The text begins with digits, and no digit is behind them. -/
structure ReadsDigits (s digits rest : List Char) : Prop where
  eq : s = digits ++ rest
  nonempty : digits ≠ []
  digits : ∀ c ∈ digits, c.isDigit
  ends : ∀ c ∈ rest.head?, c.isDigit = false

/-- The text begins with a point and places behind it, if there is a point. -/
inductive ReadsPlaces : List Char → List Char → List Char → Prop
  | none {s : List Char} (h : s.head? ≠ some '.') : ReadsPlaces s [] s
  | point {s places rest : List Char} (h : ReadsDigits s places rest) : ReadsPlaces ('.' :: s) places rest

/-- The number that digits stand for. -/
def value (digits : List Char) : Nat := Nat.ofDigitChars 10 digits 0

/-- The sign of a number. -/
def minus (negative : Bool) : List Char := if negative then ['-'] else []

/-- The number with a sign. -/
def signed (negative : Bool) (n : Nat) : Int := if negative then -n else n

/-- The text begins with the exponent of a power of ten, if there is one. -/
inductive ReadsExponent : List Char → Option Int → List Char → Prop
  | none {s : List Char} (h : ∀ c ∈ s.head?, c ∉ ['e', 'E']) : ReadsExponent s none s
  | power {letter : Char} {s digits rest : List Char} {negative : Bool} (hletter : letter ∈ ['e', 'E'])
      (h : ReadsDigits s digits rest) :
      ReadsExponent (letter :: (minus negative ++ s)) (some (signed negative (value digits))) rest
  | plus {letter : Char} {s digits rest : List Char} (hletter : letter ∈ ['e', 'E']) (h : ReadsDigits s digits rest) :
      ReadsExponent (letter :: '+' :: s) (some (value digits)) rest

/-- The number of a numeral: a whole one where it has neither places nor an exponent, else the floating-point number
nearest to it. -/
def numeral (negative : Bool) (whole places : List Char) (exponent : Option Int) : Json :=
  if places = [] ∧ exponent = none then .int (signed negative (value whole))
  else .number (Binary64.ofDecimal negative (value (whole ++ places)) (exponent.getD 0 - places.length))

/-- Digits that begin with zero only where this is the only one. -/
def HasNoSpareZero (digits : List Char) : Prop := digits.head? = some '0' → digits = ['0']

/-- The text begins with a numeral. -/
inductive ReadsNumber : List Char → Json → List Char → Prop
  | numeral {negative : Bool} {s whole places behind next rest : List Char} {exponent : Option Int}
      (hwhole : ReadsDigits s whole behind) (hzero : HasNoSpareZero whole)
      (hplaces : ReadsPlaces behind places next) (hexponent : ReadsExponent next exponent rest) :
      ReadsNumber (minus negative ++ s) (numeral negative whole places exponent) rest

/-! ## Values -/

mutual

/-- The text begins with a value. -/
inductive Reads : List Char → Json → List Char → Prop
  | nullWord {rest : List Char} : Reads ('n' :: 'u' :: 'l' :: 'l' :: rest) .null rest
  | trueWord {rest : List Char} : Reads ('t' :: 'r' :: 'u' :: 'e' :: rest) (.bool true) rest
  | falseWord {rest : List Char} : Reads ('f' :: 'a' :: 'l' :: 's' :: 'e' :: rest) (.bool false) rest
  | number {number : Json} {s rest : List Char} (h : ReadsNumber s number rest) : Reads s number rest
  | string {text : String} {s rest : List Char} (h : ReadsChars s text.toList rest) :
      Reads ('"' :: s) (.string text) rest
  | emptyArray {s rest : List Char} (h : skip s = ']' :: rest) : Reads ('[' :: s) (.array []) rest
  | array {items : List Json} {s rest : List Char} (h : ReadsItems (skip s) items rest) :
      Reads ('[' :: s) (.array items) rest
  | emptyObject {s rest : List Char} (h : skip s = '\x7d' :: rest) : Reads ('\x7b' :: s) (.object []) rest
  | object {fields : List (String × Json)} {s rest : List Char} (h : ReadsFields (skip s) fields rest) :
      Reads ('\x7b' :: s) (.object fields) rest

/-- The text begins with the items of an array and the bracket behind them. -/
inductive ReadsItems : List Char → List Json → List Char → Prop
  | last {item : Json} {s behind rest : List Char} (hitem : Reads s item behind) (hclose : skip behind = ']' :: rest) :
      ReadsItems s [item] rest
  | more {item : Json} {items : List Json} {s behind next rest : List Char} (hitem : Reads s item behind)
      (hcomma : skip behind = ',' :: next) (hitems : ReadsItems (skip next) items rest) :
      ReadsItems s (item :: items) rest

/-- The text begins with a name, a colon and a value. -/
inductive ReadsField : List Char → String × Json → List Char → Prop
  | field {name : String} {item : Json} {s behind next rest : List Char} (hname : ReadsChars s name.toList behind)
      (hcolon : skip behind = ':' :: next) (hitem : Reads (skip next) item rest) :
      ReadsField ('"' :: s) (name, item) rest

/-- The text begins with the fields of an object and the brace behind them. -/
inductive ReadsFields : List Char → List (String × Json) → List Char → Prop
  | last {field : String × Json} {s behind rest : List Char} (hfield : ReadsField s field behind)
      (hclose : skip behind = '\x7d' :: rest) : ReadsFields s [field] rest
  | more {field : String × Json} {fields : List (String × Json)} {s behind next rest : List Char}
      (hfield : ReadsField s field behind) (hcomma : skip behind = ',' :: next)
      (hfields : ReadsFields (skip next) fields rest) : ReadsFields s (field :: fields) rest

end

/-- The text is a document with this value. -/
def IsDocument (text : String) (document : Json) : Prop :=
  ∃ rest, Reads (skip text.toList) document rest ∧ skip rest = []

/-! ## A string has one meaning -/

variable {s s' rest rest' : List Char}

theorem ReadsUnit.unique {unit unit' : Nat} (h : ReadsUnit s unit rest) (h' : ReadsUnit s unit' rest') :
    unit = unit' ∧ rest = rest' :=
  ⟨h.value.symm.trans h'.value, h.rest.symm.trans h'.rest⟩

/-- A surrogate is no character. -/
theorem toNat_not_high (c : Char) : ¬ (0xD800 ≤ c.toNat ∧ c.toNat < 0xDC00) := by
  rintro ⟨hlow, hhigh⟩
  have hvalid : c.toNat.isValidChar := c.valid
  rcases hvalid with h | h <;> omega

theorem not_readsUnit_of_high {high : Nat} (hhigh : 0xD800 ≤ high ∧ high < 0xDC00) (h : ReadsUnit s high rest)
    (c : Char) : ¬ ReadsUnit s c.toNat rest' := by
  intro hunit
  obtain ⟨rfl, -⟩ := hunit.unique h
  exact toNat_not_high c hhigh

theorem ReadsChar.unique {c c' : Char} (h : ReadsChar s c rest) (h' : ReadsChar s c' rest') :
    c = c' ∧ rest = rest' := by
  have hu : letterEscapes.lookup 'u' = none := by decide
  cases h with
  | plain _ _ hescape =>
    cases h' with
    | plain => exact ⟨rfl, rfl⟩
    | letter | unit | pair => exact absurd rfl hescape
  | letter hletter =>
    cases h' with
    | plain _ _ hescape => exact absurd rfl hescape
    | letter hletter' => exact ⟨Option.some.inj (hletter.symm.trans hletter'), rfl⟩
    | unit | pair => simp [hu] at hletter
  | unit hunit =>
    cases h' with
    | plain _ _ hescape => exact absurd rfl hescape
    | letter hletter' => simp [hu] at hletter'
    | unit hunit' =>
      obtain ⟨hcode, rfl⟩ := hunit.unique hunit'
      exact ⟨Char.toNat_inj.mp hcode, rfl⟩
    | pair hhigh' _ hc' => exact absurd hunit (not_readsUnit_of_high hc'.high_range hhigh' c)
  | pair hhigh hlow hc =>
    cases h' with
    | plain _ _ hescape => exact absurd rfl hescape
    | letter hletter' => simp [hu] at hletter'
    | unit hunit' => exact absurd hunit' (not_readsUnit_of_high hc.high_range hhigh c')
    | pair hhigh' hlow' hc' =>
      obtain ⟨rfl, hnext⟩ := hhigh.unique hhigh'
      cases hnext
      obtain ⟨rfl, rfl⟩ := hlow.unique hlow'
      exact ⟨Char.toNat_inj.mp (hc.code.trans hc'.code.symm), rfl⟩

/-- A quote is no character of a string. -/
theorem not_readsChar_quote {c : Char} : ¬ ReadsChar ('"' :: s) c rest := by
  intro h
  cases h with
  | plain _ hquote => exact hquote rfl

theorem ReadsChars.unique {text text' : List Char} (h : ReadsChars s text rest) (h' : ReadsChars s text' rest') :
    text = text' ∧ rest = rest' := by
  induction h generalizing text' with
  | close =>
    cases h' with
    | close => exact ⟨rfl, rfl⟩
    | char hc' => exact absurd hc' not_readsChar_quote
  | char hc _ ih =>
    cases h' with
    | close => exact absurd hc not_readsChar_quote
    | char hc' htext' =>
      obtain ⟨rfl, rfl⟩ := hc.unique hc'
      obtain ⟨rfl, rfl⟩ := ih htext'
      exact ⟨rfl, rfl⟩

/-! ## A numeral has one meaning -/

theorem ReadsDigits.unique {digits digits' : List Char} (h : ReadsDigits s digits rest)
    (h' : ReadsDigits s digits' rest') : digits = digits' ∧ rest = rest' := by
  have hspan : ∀ {digits rest}, ReadsDigits s digits rest →
      s.takeWhile Char.isDigit = digits ∧ s.dropWhile Char.isDigit = rest := fun h =>
    h.eq ▸ Text.span_append h.digits h.ends
  exact ⟨(hspan h).1.symm.trans (hspan h').1, (hspan h).2.symm.trans (hspan h').2⟩

theorem ReadsDigits.exists_cons {digits : List Char} (h : ReadsDigits s digits rest) :
    ∃ c behind, s = c :: behind ∧ c.isDigit := by
  obtain ⟨c, more, rfl⟩ := List.exists_cons_of_ne_nil h.nonempty
  exact ⟨c, more ++ rest, h.eq, h.digits c (.head _)⟩

theorem ReadsPlaces.unique {places places' : List Char} (h : ReadsPlaces s places rest)
    (h' : ReadsPlaces s places' rest') : places = places' ∧ rest = rest' := by
  cases h with
  | none hpoint =>
    cases h' with
    | none => exact ⟨rfl, rfl⟩
    | point => exact absurd rfl hpoint
  | point hdigits =>
    cases h' with
    | none hpoint' => exact absurd rfl hpoint'
    | point hdigits' => exact hdigits.unique hdigits'

/-- A sign is told from the digits behind it. -/
theorem minus_unique {digits digits' : List Char} {negative negative' : Bool} (h : ReadsDigits s digits rest)
    (h' : ReadsDigits s' digits' rest') (heq : minus negative ++ s = minus negative' ++ s') :
    negative = negative' ∧ s = s' := by
  obtain ⟨c, behind, rfl, hc⟩ := h.exists_cons
  obtain ⟨c', behind', rfl, hc'⟩ := h'.exists_cons
  have hne : ∀ {c : Char}, c.isDigit → c ≠ '-' := by
    rintro c hc rfl
    cases hc
  cases negative <;> cases negative'
  · exact ⟨rfl, heq⟩
  · exact absurd (List.cons.inj heq).1 (hne hc)
  · exact absurd (List.cons.inj heq).1.symm (hne hc')
  · exact ⟨rfl, (List.cons.inj heq).2⟩

theorem minus_ne_plus {digits : List Char} {negative : Bool} (h : ReadsDigits s digits rest) :
    minus negative ++ s ≠ '+' :: s' := by
  obtain ⟨c, behind, rfl, hc⟩ := h.exists_cons
  intro heq
  cases negative with
  | true => exact absurd (List.cons.inj heq).1 (by decide)
  | false =>
    obtain ⟨rfl, -⟩ := List.cons.inj heq
    cases hc

theorem ReadsExponent.unique {exponent exponent' : Option Int} (h : ReadsExponent s exponent rest)
    (h' : ReadsExponent s exponent' rest') : exponent = exponent' ∧ rest = rest' := by
  cases h with
  | none hletter =>
    cases h' with
    | none => exact ⟨rfl, rfl⟩
    | power hletter' | plus hletter' => exact absurd hletter' (hletter _ rfl)
  | power hletter hdigits =>
    generalize htext : _ :: (_ ++ _) = text at h'
    cases h' with
    | none hletter' => exact absurd hletter (hletter' _ (htext ▸ rfl))
    | power hletter' hdigits' =>
      obtain ⟨rfl, rfl⟩ := minus_unique hdigits hdigits' (List.cons.inj htext).2
      obtain ⟨rfl, rfl⟩ := hdigits.unique hdigits'
      exact ⟨rfl, rfl⟩
    | plus _ _ => exact absurd (List.cons.inj htext).2 (minus_ne_plus hdigits)
  | plus hletter hdigits =>
    generalize htext : _ :: '+' :: _ = text at h'
    cases h' with
    | none hletter' => exact absurd hletter (hletter' _ (htext ▸ rfl))
    | power _ hdigits' => exact absurd (List.cons.inj htext).2.symm (minus_ne_plus hdigits')
    | plus _ hdigits' =>
      obtain ⟨-, rfl⟩ := List.cons.inj (List.cons.inj htext).2
      obtain ⟨rfl, rfl⟩ := hdigits.unique hdigits'
      exact ⟨rfl, rfl⟩

theorem ReadsNumber.unique {number number' : Json} (h : ReadsNumber s number rest) (h' : ReadsNumber s number' rest') :
    number = number' ∧ rest = rest' := by
  obtain ⟨hwhole, -, hplaces, hexponent⟩ := h
  generalize htext : minus _ ++ _ = text at h'
  obtain ⟨hwhole', -, hplaces', hexponent'⟩ := h'
  obtain ⟨rfl, rfl⟩ := minus_unique hwhole hwhole' htext
  obtain ⟨rfl, rfl⟩ := hwhole.unique hwhole'
  obtain ⟨rfl, rfl⟩ := hplaces.unique hplaces'
  obtain ⟨rfl, rfl⟩ := hexponent.unique hexponent'
  exact ⟨rfl, rfl⟩

/-- The first character tells that a text begins with a number. -/
theorem ReadsNumber.exists_cons {number : Json} (h : ReadsNumber s number rest) :
    ∃ c behind, s = c :: behind ∧ (c = '-' ∨ c.isDigit) := by
  obtain @⟨negative, _, _, _, _, _, _, _, hwhole⟩ := h
  obtain ⟨c, behind, rfl, hc⟩ := hwhole.exists_cons
  cases negative with
  | true => exact ⟨_, _, rfl, .inl rfl⟩
  | false => exact ⟨_, _, rfl, .inr hc⟩

theorem not_readsNumber {c : Char} {number : Json} (hc : c ≠ '-' ∧ c.isDigit = false) :
    ¬ ReadsNumber (c :: s) number rest := by
  intro h
  obtain ⟨_, _, ⟨rfl, rfl⟩, hminus | hdigit⟩ := h.exists_cons
  · exact hc.1 hminus
  · exact absurd hdigit (by simp [hc.2])

/-! ## A document has one meaning -/

/-- A value begins neither with a blank nor with the end of an array. -/
theorem Reads.exists_cons {item : Json} (h : Reads s item rest) :
    ∃ c behind, s = c :: behind ∧ isBlank c = false ∧ c ≠ ']' := by
  cases h with
  | number h =>
    obtain ⟨c, behind, rfl, hc⟩ := h.exists_cons
    have hall : [' ', '\t', '\n', '\r', ']'].all (fun c => c ≠ '-' ∧ c.isDigit = false) = true := by decide
    have hmem : c ∉ [' ', '\t', '\n', '\r', ']'] := fun hmem => by
      obtain ⟨hminus, hdigit⟩ := of_decide_eq_true (List.all_eq_true.mp hall c hmem)
      exact hc.elim hminus (by simp [hdigit])
    simp only [List.mem_cons, not_or] at hmem
    exact ⟨c, behind, rfl, by simp [isBlank, hmem], hmem.2.2.2.2.1⟩
  | nullWord | trueWord | falseWord | string | emptyArray | array | emptyObject | object =>
    exact ⟨_, _, rfl, by decide, by decide⟩

/-- No array goes on with its end as the first item. -/
theorem not_readsItems_close {items : List Json} : ¬ ReadsItems (']' :: s) items rest := by
  have hnot : ∀ {item : Json} {behind : List Char}, ¬ Reads (']' :: s) item behind := fun hitem => by
    obtain ⟨c, _, ⟨rfl, rfl⟩, -, hne⟩ := hitem.exists_cons
    exact hne rfl
  intro h
  cases h with
  | last hitem | more hitem => exact hnot hitem

/-- No object goes on with its end as the first name. -/
theorem not_readsFields_close {fields : List (String × Json)} : ¬ ReadsFields ('\x7d' :: s) fields rest := by
  intro h
  cases h with
  | last hfield | more hfield => cases hfield

mutual

/-- **A text begins with at most one value.** -/
theorem Reads.unique {item item' : Json} {s rest rest' : List Char} (h : Reads s item rest) (h' : Reads s item' rest') :
    item = item' ∧ rest = rest' := by
  cases h with
  | number h =>
    cases h' with
    | number h' => exact h.unique h'
    | nullWord | trueWord | falseWord | string | emptyArray | array | emptyObject | object =>
      exact absurd h (not_readsNumber (by decide))
  | nullWord | trueWord | falseWord =>
    cases h' with
    | number h' => exact absurd h' (not_readsNumber (by decide))
    | _ => exact ⟨rfl, rfl⟩
  | string h =>
    cases h' with
    | number h' => exact absurd h' (not_readsNumber (by decide))
    | string h' =>
      obtain ⟨htext, rfl⟩ := h.unique h'
      exact ⟨congrArg Json.string (String.toList_inj.mp htext), rfl⟩
  | emptyArray h =>
    cases h' with
    | number h' => exact absurd h' (not_readsNumber (by decide))
    | emptyArray h' => exact ⟨rfl, (List.cons.inj (h.symm.trans h')).2⟩
    | array h' => exact absurd (h ▸ h') not_readsItems_close
  | array h =>
    cases h' with
    | number h' => exact absurd h' (not_readsNumber (by decide))
    | emptyArray h' => exact absurd (h' ▸ h) not_readsItems_close
    | array h' =>
      obtain ⟨rfl, rfl⟩ := ReadsItems.unique h h'
      exact ⟨rfl, rfl⟩
  | emptyObject h =>
    cases h' with
    | number h' => exact absurd h' (not_readsNumber (by decide))
    | emptyObject h' => exact ⟨rfl, (List.cons.inj (h.symm.trans h')).2⟩
    | object h' => exact absurd (h ▸ h') not_readsFields_close
  | object h =>
    cases h' with
    | number h' => exact absurd h' (not_readsNumber (by decide))
    | emptyObject h' => exact absurd (h' ▸ h) not_readsFields_close
    | object h' =>
      obtain ⟨rfl, rfl⟩ := ReadsFields.unique h h'
      exact ⟨rfl, rfl⟩

theorem ReadsItems.unique {items items' : List Json} {s rest rest' : List Char} (h : ReadsItems s items rest)
    (h' : ReadsItems s items' rest') : items = items' ∧ rest = rest' := by
  cases h with
  | last hitem hclose =>
    cases h' with
    | last hitem' hclose' =>
      obtain ⟨rfl, rfl⟩ := Reads.unique hitem hitem'
      exact ⟨rfl, (List.cons.inj (hclose.symm.trans hclose')).2⟩
    | more hitem' hcomma' =>
      obtain ⟨-, rfl⟩ := Reads.unique hitem hitem'
      cases hclose.symm.trans hcomma'
  | more hitem hcomma hitems =>
    cases h' with
    | last hitem' hclose' =>
      obtain ⟨-, rfl⟩ := Reads.unique hitem hitem'
      cases hcomma.symm.trans hclose'
    | more hitem' hcomma' hitems' =>
      obtain ⟨rfl, rfl⟩ := Reads.unique hitem hitem'
      cases hcomma.symm.trans hcomma'
      obtain ⟨rfl, rfl⟩ := ReadsItems.unique hitems hitems'
      exact ⟨rfl, rfl⟩

theorem ReadsField.unique {field field' : String × Json} {s rest rest' : List Char} (h : ReadsField s field rest)
    (h' : ReadsField s field' rest') : field = field' ∧ rest = rest' := by
  cases h with
  | field hname hcolon hitem =>
    cases h' with
    | field hname' hcolon' hitem' =>
      obtain ⟨hnames, rfl⟩ := hname.unique hname'
      cases hcolon.symm.trans hcolon'
      obtain ⟨rfl, rfl⟩ := Reads.unique hitem hitem'
      obtain rfl := String.toList_inj.mp hnames
      exact ⟨rfl, rfl⟩

theorem ReadsFields.unique {fields fields' : List (String × Json)} {s rest rest' : List Char}
    (h : ReadsFields s fields rest) (h' : ReadsFields s fields' rest') : fields = fields' ∧ rest = rest' := by
  cases h with
  | last hfield hclose =>
    cases h' with
    | last hfield' hclose' =>
      obtain ⟨rfl, rfl⟩ := ReadsField.unique hfield hfield'
      exact ⟨rfl, (List.cons.inj (hclose.symm.trans hclose')).2⟩
    | more hfield' hcomma' =>
      obtain ⟨-, rfl⟩ := ReadsField.unique hfield hfield'
      cases hclose.symm.trans hcomma'
  | more hfield hcomma hfields =>
    cases h' with
    | last hfield' hclose' =>
      obtain ⟨-, rfl⟩ := ReadsField.unique hfield hfield'
      cases hcomma.symm.trans hclose'
    | more hfield' hcomma' hfields' =>
      obtain ⟨rfl, rfl⟩ := ReadsField.unique hfield hfield'
      cases hcomma.symm.trans hcomma'
      obtain ⟨rfl, rfl⟩ := ReadsFields.unique hfields hfields'
      exact ⟨rfl, rfl⟩

end

/-- **A text is a document of at most one value.** -/
theorem IsDocument.unique {text : String} {document document' : Json} (h : IsDocument text document)
    (h' : IsDocument text document') : document = document' := by
  obtain ⟨_, hreads, -⟩ := h
  obtain ⟨_, hreads', -⟩ := h'
  exact (hreads.unique hreads').1

end LayerLint.Json
