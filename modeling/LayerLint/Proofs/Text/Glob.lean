import LayerLint.Text.Glob
import LayerLint.Proofs.Text.Search
import Mathlib.Data.List.Forall2
import Mathlib.Data.List.TakeWhile

/-!
# Matches of glob patterns

A pattern matches a text that can be cut into pieces, one for each of its elements, such that each element stands for
its piece (`accepts_iff`). So two patterns one behind the other match what can be cut into a match of each
(`accepts_append`), and a pattern without wildcards matches itself (`accepts_parse_plain`).

A slash between two patterns stands for itself where it is in no bracket expression (`parse_append_slash`). In a pattern
whose bracket expressions hold no slash (`brackets`), every slash is an element of its own, and a text that is matched
has at least as many (`count_slash_le`). If it has just as many, then none is left to the wildcards
(`not_mem_of_covers`), and the pattern matches segment by segment (`accepts_iff_forall₂`).
-/

namespace LayerLint.Glob

open Text

/-! ## Pieces -/

/-- The element stands for the text. -/
def Element.Covers : Element → List Char → Prop
  | .anyText, _ => True
  | .oneOf set, s => ∃ c, s = [c] ∧ set.contains c = true

theorem accepts_oneOf {set : CharSet} {rest : List Element} {s : List Char} :
    accepts (.oneOf set :: rest) s = true ↔ ∃ c r, s = c :: r ∧ set.contains c = true ∧ accepts rest r = true := by
  cases s with
  | nil => simp [accepts]
  | cons c r => simp [accepts]

/-- A star takes a beginning of the text, and the rest of the pattern matches what remains. -/
theorem accepts_anyText {rest : List Element} {s : List Char} :
    accepts (.anyText :: rest) s = true ↔ ∃ u v, s = u ++ v ∧ accepts rest v = true := by
  induction s with
  | nil =>
    rw [accepts, Bool.or_false]
    constructor
    · intro h
      exact ⟨[], [], rfl, h⟩
    · rintro ⟨u, v, hs, h⟩
      rwa [(List.nil_eq_append_iff.mp hs).2] at h
  | cons c r ih =>
    rw [accepts, Bool.or_eq_true, ih]
    constructor
    · rintro (h | ⟨u, v, rfl, h⟩)
      · exact ⟨[], c :: r, rfl, h⟩
      · exact ⟨c :: u, v, rfl, h⟩
    · rintro ⟨u, v, hs, h⟩
      cases u with
      | nil => exact .inl (hs ▸ h)
      | cons d u =>
        obtain ⟨rfl, rfl⟩ := List.cons.inj hs
        exact .inr ⟨u, v, rfl, h⟩

/-- **A pattern matches what can be cut into pieces that its elements stand for.** -/
theorem accepts_iff {elements : List Element} {s : List Char} :
    accepts elements s = true ↔ ∃ pieces, List.Forall₂ Element.Covers elements pieces ∧ s = pieces.flatten := by
  induction elements generalizing s with
  | nil => simp [accepts, List.isEmpty_iff]
  | cons element rest ih =>
    have hcut : accepts (element :: rest) s = true ↔ ∃ u v, s = u ++ v ∧ element.Covers u ∧ accepts rest v = true := by
      cases element with
      | anyText => simp [accepts_anyText, Element.Covers]
      | oneOf set =>
        rw [accepts_oneOf]
        constructor
        · rintro ⟨c, r, rfl, hc, hr⟩
          exact ⟨[c], r, rfl, ⟨c, rfl, hc⟩, hr⟩
        · rintro ⟨u, v, rfl, ⟨c, rfl, hc⟩, hv⟩
          exact ⟨c, v, rfl, hc, hv⟩
    rw [hcut]
    constructor
    · rintro ⟨u, v, rfl, hu, hv⟩
      obtain ⟨pieces, hpieces, rfl⟩ := ih.mp hv
      exact ⟨u :: pieces, .cons hu hpieces, rfl⟩
    · rintro ⟨pieces, hpieces, rfl⟩
      obtain ⟨u, more, hu, hmore, rfl⟩ := List.forall₂_cons_left_iff.mp hpieces
      exact ⟨u, more.flatten, rfl, hu, ih.mpr ⟨more, hmore, rfl⟩⟩

/-- **Two patterns one behind the other match what can be cut into a match of each.** -/
theorem accepts_append {a b : List Element} {s : List Char} :
    accepts (a ++ b) s = true ↔ ∃ u v, s = u ++ v ∧ accepts a u = true ∧ accepts b v = true := by
  simp only [accepts_iff]
  constructor
  · rintro ⟨pieces, hpieces, rfl⟩
    have ha := List.forall₂_take_append pieces a b hpieces.flip
    have hb := List.forall₂_drop_append pieces a b hpieces.flip
    refine ⟨(pieces.take a.length).flatten, (pieces.drop a.length).flatten, ?_, ⟨_, ha.flip, rfl⟩, ⟨_, hb.flip, rfl⟩⟩
    rw [← List.flatten_append, List.take_append_drop]
  · rintro ⟨u, v, rfl, ⟨ps, hps, rfl⟩, ⟨qs, hqs, rfl⟩⟩
    exact ⟨ps ++ qs, List.rel_append hps hqs, by rw [List.flatten_append]⟩

/-! ## Literal characters -/

@[simp] theorem contains_exactly {c d : Char} : (exactly c).contains d = true ↔ d = c := by
  simp [exactly, CharSet.contains]

/-- The element of a slash. -/
def slash : Element := .oneOf (exactly '/')

theorem covers_slash {s : List Char} : slash.Covers s ↔ s = ['/'] := by
  simp [slash, Element.Covers]

/-- Characters that stand for themselves match themselves only. -/
theorem accepts_exactly {cs s : List Char} : accepts (cs.map fun c => .oneOf (exactly c)) s = true ↔ s = cs := by
  induction cs generalizing s with
  | nil => simp [accepts, List.isEmpty_iff]
  | cons c cs ih =>
    rw [List.map_cons, accepts_oneOf]
    simp only [contains_exactly, ih]
    constructor
    · rintro ⟨d, r, rfl, rfl, rfl⟩
      rfl
    · rintro rfl
      exact ⟨c, cs, rfl, rfl, rfl⟩

/-- The characters that do not stand for themselves everywhere. -/
def wildcards : List Char := ['*', '?', '[']

theorem parse_plain {cs : List Char} (h : ∀ c ∈ cs, c ∉ wildcards) : parse cs = cs.map fun c => .oneOf (exactly c) := by
  unfold parse
  induction cs with
  | nil => rfl
  | cons c cs ih =>
    obtain ⟨hc, hcs⟩ := List.forall_mem_cons.mp h
    simp only [wildcards, List.mem_cons, List.not_mem_nil, or_false, not_or] at hc
    rw [parseFrom, if_neg hc.1, if_neg hc.2.1, if_neg hc.2.2, ih hcs, List.map_cons]

/-- **A pattern without wildcards matches itself only.** -/
theorem accepts_parse_plain {cs s : List Char} (h : ∀ c ∈ cs, c ∉ wildcards) :
    accepts (parse cs) s = true ↔ s = cs := by
  rw [parse_plain h, accepts_exactly]

/-! ## Bracket expressions -/

/-- What stands between the brackets of the bracket expressions of a pattern whose first `skip` characters are already
read. -/
def bracketsFrom : Nat → List Char → List (List Char)
  | _, [] => []
  | skip + 1, _ :: r => bracketsFrom skip r
  | 0, c :: r =>
    if c = '[' then
      match bracketInside? r with
      | some inside => inside :: bracketsFrom (inside.length + 1) r
      | none => bracketsFrom 0 r
    else bracketsFrom 0 r

/-- What stands between the brackets of the bracket expressions of a pattern. -/
def brackets (pattern : List Char) : List (List Char) := bracketsFrom 0 pattern

/-- What is read of a bracket expression up to the closing bracket, if there is one, behind what is already read. -/
def upToBracket? (lead cs : List Char) : Option (List Char) :=
  if cs.contains ']' then some (lead ++ cs.takeWhile (· != ']')) else none

/-- The same where a closing bracket that stands first is an ordinary character. -/
def behindMark? (lead : List Char) : List Char → Option (List Char)
  | ']' :: r => upToBracket? (lead ++ [']']) r
  | cs => upToBracket? lead cs

theorem behindMark?_of_ne {lead r : List Char} {c : Char} (h : c ≠ ']') :
    behindMark? lead (c :: r) = upToBracket? lead (c :: r) := by
  unfold behindMark?
  split
  · rename_i heq
    exact absurd (List.cons.inj heq).1 h
  · rfl

theorem bracketInside?_complement (r : List Char) : bracketInside? ('!' :: r) = behindMark? ['!'] r := by
  cases r with
  | nil => rfl
  | cons c r =>
    by_cases hc : c = ']'
    · subst hc
      rfl
    · rw [behindMark?_of_ne hc]
      simp [bracketInside?, upToBracket?, hc]

theorem bracketInside?_of_ne {c : Char} (h : c ≠ '!') (r : List Char) :
    bracketInside? (c :: r) = behindMark? [] (c :: r) := by
  by_cases hc : c = ']'
  · subst hc
    rfl
  · rw [behindMark?_of_ne hc]
    simp [bracketInside?, upToBracket?, h, hc]

theorem upToBracket?_append_slash {lead r b : List Char}
    (h : ∀ inside, upToBracket? lead (r ++ '/' :: b) = some inside → '/' ∉ inside) :
    upToBracket? lead (r ++ '/' :: b) = upToBracket? lead r := by
  unfold upToBracket? at h ⊢
  by_cases hr : ']' ∈ r
  · have hclosed : ¬(r.takeWhile (· != ']')).length = r.length := fun hlength => by
      have hall := List.takeWhile_eq_self_iff.mp ((List.takeWhile_prefix _).eq_of_length hlength)
      simpa using hall ']' hr
    simp [hr, List.takeWhile_append, hclosed]
  · by_cases hb : ']' ∈ b
    · -- the expression would go on behind the slash
      refine absurd ?_ (h _ (if_pos (by simp [hb])))
      rw [List.takeWhile_append_of_pos fun c hc => by simpa using ne_of_mem_of_not_mem hc hr]
      simp
    · simp [hr, hb]

theorem behindMark?_append_slash {lead r b : List Char}
    (h : ∀ inside, behindMark? lead (r ++ '/' :: b) = some inside → '/' ∉ inside) :
    behindMark? lead (r ++ '/' :: b) = behindMark? lead r := by
  cases r with
  | nil => exact upToBracket?_append_slash (r := []) h
  | cons c r =>
    by_cases hc : c = ']'
    · subst hc
      exact upToBracket?_append_slash h
    · have hsame : ∀ s, behindMark? lead (c :: s) = upToBracket? lead (c :: s) := fun s => behindMark?_of_ne hc
      simp only [List.cons_append, hsame] at h ⊢
      exact upToBracket?_append_slash (r := c :: r) h

/-- A bracket expression without a slash ends before the next slash. -/
theorem bracketInside?_append_slash {r b : List Char}
    (h : ∀ inside, bracketInside? (r ++ '/' :: b) = some inside → '/' ∉ inside) :
    bracketInside? (r ++ '/' :: b) = bracketInside? r := by
  cases r with
  | nil => exact behindMark?_append_slash (r := []) h
  | cons c r =>
    by_cases hc : c = '!'
    · subst hc
      simp only [List.cons_append, bracketInside?_complement] at h ⊢
      exact behindMark?_append_slash h
    · simp only [List.cons_append, bracketInside?_of_ne hc] at h ⊢
      exact behindMark?_append_slash (r := c :: r) h

theorem length_lt_of_upToBracket? {lead cs inside : List Char} (h : upToBracket? lead cs = some inside) :
    inside.length < lead.length + cs.length := by
  unfold upToBracket? at h
  split at h
  · rename_i hclosed
    obtain rfl := Option.some.inj h
    have hshorter : (cs.takeWhile (· != ']')).length ≠ cs.length := fun hlength => by
      have hall := List.takeWhile_eq_self_iff.mp ((List.takeWhile_prefix _).eq_of_length hlength)
      simpa using hall ']' (by simpa using hclosed)
    have hle := (List.takeWhile_prefix (· != ']') (l := cs)).length_le
    rw [List.length_append]
    omega
  · cases h

theorem length_lt_of_behindMark? {lead cs inside : List Char} (h : behindMark? lead cs = some inside) :
    inside.length < lead.length + cs.length := by
  unfold behindMark? at h
  split at h
  · have := length_lt_of_upToBracket? h
    simp only [List.length_append, List.length_cons, List.length_nil] at this ⊢
    omega
  · exact length_lt_of_upToBracket? h

/-- What stands between brackets is followed by the closing one. -/
theorem length_lt_of_bracketInside? {r inside : List Char} (h : bracketInside? r = some inside) :
    inside.length < r.length := by
  cases r with
  | nil =>
    have hmark : behindMark? [] [] = some inside := h
    simpa using length_lt_of_behindMark? hmark
  | cons c r =>
    by_cases hc : c = '!'
    · subst hc
      rw [bracketInside?_complement] at h
      have := length_lt_of_behindMark? h
      simp only [List.length_cons, List.length_nil] at this ⊢
      omega
    · rw [bracketInside?_of_ne hc] at h
      simpa using length_lt_of_behindMark? h

/-- What a character stands for that opens no bracket. -/
def ofChar (c : Char) : Element :=
  if c = '*' then .anyText else if c = '?' then .oneOf anyChar else .oneOf (exactly c)

section Parts

variable {c : Char} {r inside : List Char}

theorem parseFrom_cons (h : c ≠ '[') : parseFrom 0 (c :: r) = ofChar c :: parseFrom 0 r := by
  unfold ofChar
  rw [parseFrom, if_neg h]
  split
  · rfl
  · split <;> rfl

theorem parseFrom_bracket (h : bracketInside? r = some inside) :
    parseFrom 0 ('[' :: r) = .oneOf (charSet inside) :: parseFrom (inside.length + 1) r := by
  simp [parseFrom, h]

theorem parseFrom_unclosed (h : bracketInside? r = none) :
    parseFrom 0 ('[' :: r) = .oneOf (exactly '[') :: parseFrom 0 r := by
  simp [parseFrom, h]

theorem bracketsFrom_cons (h : c ≠ '[') : bracketsFrom 0 (c :: r) = bracketsFrom 0 r := if_neg h

theorem bracketsFrom_bracket (h : bracketInside? r = some inside) :
    bracketsFrom 0 ('[' :: r) = inside :: bracketsFrom (inside.length + 1) r := by
  simp [bracketsFrom, h]

theorem bracketsFrom_unclosed (h : bracketInside? r = none) : bracketsFrom 0 ('[' :: r) = bracketsFrom 0 r := by
  simp [bracketsFrom, h]

end Parts

theorem parseFrom_append_slash {skip : Nat} {a b : List Char} (hskip : skip ≤ a.length)
    (h : ∀ inside ∈ bracketsFrom skip (a ++ '/' :: b), '/' ∉ inside) :
    parseFrom skip (a ++ '/' :: b) = parseFrom skip a ++ slash :: parse b ∧
      bracketsFrom skip (a ++ '/' :: b) = bracketsFrom skip a ++ brackets b := by
  induction a generalizing skip with
  | nil =>
    obtain rfl := Nat.le_zero.mp hskip
    exact ⟨rfl, rfl⟩
  | cons c r ih =>
    rw [List.cons_append] at h ⊢
    cases skip with
    | succ skip => exact ih (Nat.le_of_succ_le_succ hskip) h
    | zero =>
      by_cases hc : c = '['
      · subst hc
        -- a bracket is closed in the longer text only if it is in the shorter one
        have hsame : bracketInside? (r ++ '/' :: b) = bracketInside? r :=
          bracketInside?_append_slash fun inside hinside => h inside (by simp [bracketsFrom_bracket hinside])
        cases hinside : bracketInside? r with
        | some inside =>
          rw [bracketsFrom_bracket (hsame.trans hinside)] at h ⊢
          obtain ⟨hparse, hbrackets⟩ := ih (length_lt_of_bracketInside? hinside) fun other hother =>
            h other (.tail _ hother)
          rw [parseFrom_bracket (hsame.trans hinside), parseFrom_bracket hinside, bracketsFrom_bracket hinside, hparse,
            hbrackets]
          exact ⟨rfl, rfl⟩
        | none =>
          rw [bracketsFrom_unclosed (hsame.trans hinside)] at h ⊢
          obtain ⟨hparse, hbrackets⟩ := ih (Nat.zero_le _) h
          rw [parseFrom_unclosed (hsame.trans hinside), parseFrom_unclosed hinside, bracketsFrom_unclosed hinside,
            hparse, hbrackets]
          exact ⟨rfl, rfl⟩
      · rw [bracketsFrom_cons hc] at h ⊢
        obtain ⟨hparse, hbrackets⟩ := ih (Nat.zero_le _) h
        rw [parseFrom_cons hc, parseFrom_cons hc, bracketsFrom_cons hc, hparse, hbrackets]
        exact ⟨rfl, rfl⟩

/-- No bracket expression of the pattern holds a slash. -/
def KeepsSlashes (pattern : List Char) : Prop := ∀ inside ∈ brackets pattern, '/' ∉ inside

instance : DecidablePred KeepsSlashes := fun pattern =>
  inferInstanceAs (Decidable (∀ inside ∈ brackets pattern, '/' ∉ inside))

/-- **A slash outside of brackets stands for itself.** -/
theorem parse_append_slash {a b : List Char} (h : KeepsSlashes (a ++ '/' :: b)) :
    parse (a ++ '/' :: b) = parse a ++ slash :: parse b :=
  (parseFrom_append_slash (Nat.zero_le _) h).1

theorem brackets_append_slash {a b : List Char} (h : KeepsSlashes (a ++ '/' :: b)) :
    brackets (a ++ '/' :: b) = brackets a ++ brackets b :=
  (parseFrom_append_slash (Nat.zero_le _) h).2

theorem KeepsSlashes.of_append {a b : List Char} (h : KeepsSlashes (a ++ '/' :: b)) : KeepsSlashes b := by
  intro inside hinside
  apply h inside
  rw [brackets_append_slash h]
  exact List.mem_append_right _ hinside

theorem keepsSlashes_of_not_mem {pattern : List Char} (h : '[' ∉ pattern) : KeepsSlashes pattern := by
  have hnone : ∀ cs : List Char, '[' ∉ cs → bracketsFrom 0 cs = [] := fun cs => by
    induction cs with
    | nil => simp [bracketsFrom]
    | cons c cs ih =>
      intro hcs
      simp only [List.mem_cons, not_or] at hcs
      rw [bracketsFrom_cons (Ne.symm hcs.1), ih hcs.2]
  intro inside hinside
  rw [brackets, hnone pattern h] at hinside
  cases hinside

/-! ## Slashes -/

/-- A text that is covered has a slash for every element of a slash. If it has no others, then none is left to the
other elements. -/
theorem count_slash_le_of_covers {elements : List Element} {pieces : List (List Char)}
    (h : List.Forall₂ Element.Covers elements pieces) : elements.count slash ≤ pieces.flatten.count '/' ∧
      (pieces.flatten.count '/' ≤ elements.count slash →
        List.Forall₂ (fun element piece => element ≠ slash → '/' ∉ piece) elements pieces) := by
  induction h with
  | nil => exact ⟨Nat.le_refl _, fun _ => .nil⟩
  | @cons element piece elements pieces hcover _ ih =>
    obtain ⟨hle, hothers⟩ := ih
    rw [List.flatten_cons, List.count_append]
    by_cases he : element = slash
    · rw [he, covers_slash] at hcover
      rw [he, List.count_cons_self, hcover, List.count_singleton_self]
      exact ⟨by omega, fun h => .cons (fun hne => absurd rfl hne) (hothers (by omega))⟩
    · rw [List.count_cons_of_ne he]
      refine ⟨by omega, fun h => .cons (fun _ => ?_) (hothers (by omega))⟩
      exact List.count_eq_zero.mp (by omega)

/-- Every slash of the pattern is an element. -/
theorem count_le_count_slash {pattern : List Char} (h : KeepsSlashes pattern) :
    pattern.count '/' ≤ (parse pattern).count slash := by
  induction pattern using @piecesInduction '/' with
  | last pattern hlast =>
    rw [List.count_eq_zero.mpr hlast]
    exact Nat.zero_le _
  | more a b ha ih =>
    have hb := ih h.of_append
    rw [parse_append_slash h, List.count_append, List.count_append, List.count_cons_self, List.count_cons_self,
      List.count_eq_zero.mpr ha]
    omega

/-- **A text that is matched has a slash for every slash of the pattern.** -/
theorem count_slash_le {pattern s : List Char} (h : KeepsSlashes pattern) (hs : accepts (parse pattern) s = true) :
    pattern.count '/' ≤ s.count '/' := by
  obtain ⟨pieces, hpieces, rfl⟩ := accepts_iff.mp hs
  exact (count_le_count_slash h).trans (count_slash_le_of_covers hpieces).1

/-- **If it has no others, then no wildcard takes a slash.** -/
theorem not_mem_of_covers {pattern : List Char} (h : KeepsSlashes pattern) {pieces : List (List Char)}
    (hpieces : List.Forall₂ Element.Covers (parse pattern) pieces)
    (hcount : pattern.count '/' = pieces.flatten.count '/') :
    List.Forall₂ (fun element piece => element ≠ slash → '/' ∉ piece) (parse pattern) pieces :=
  (count_slash_le_of_covers hpieces).2 (hcount ▸ count_le_count_slash h)

/-- Where a slash stands between two patterns, one matches what stands before a slash of the text and the other what
stands behind it. -/
theorem accepts_append_slash {a b : List Element} {s : List Char} :
    accepts (a ++ slash :: b) s = true ↔ ∃ u v, s = u ++ '/' :: v ∧ accepts a u = true ∧ accepts b v = true := by
  rw [accepts_append]
  constructor
  · rintro ⟨u, t, rfl, hu, ht⟩
    obtain ⟨c, v, rfl, hc, hv⟩ := accepts_oneOf.mp ht
    rw [contains_exactly] at hc
    exact ⟨u, v, by rw [hc], hu, hv⟩
  · rintro ⟨u, v, rfl, hu, hv⟩
    exact ⟨u, '/' :: v, rfl, hu, accepts_oneOf.mpr ⟨'/', v, rfl, by simp, hv⟩⟩

/-- **A pattern with as many slashes as the text matches it segment by segment.** -/
theorem accepts_iff_forall₂ {pattern s : List Char} (h : KeepsSlashes pattern) :
    pattern.count '/' = s.count '/' ∧ accepts (parse pattern) s = true ↔
      List.Forall₂ (fun pattern s => accepts (parse pattern) s = true) (splitAt '/' pattern) (splitAt '/' s) := by
  induction pattern using @piecesInduction '/' generalizing s with
  | last pattern hlast =>
    rw [splitAt_of_not_mem hlast, List.count_eq_zero.mpr hlast]
    constructor
    · rintro ⟨hcount, hs⟩
      rw [splitAt_of_not_mem (List.count_eq_zero.mp hcount.symm)]
      exact .cons hs .nil
    · intro hsegments
      have hlength := hsegments.length_eq
      rw [length_splitAt, List.length_singleton] at hlength
      have hcount : s.count '/' = 0 := by omega
      rw [splitAt_of_not_mem (List.count_eq_zero.mp hcount)] at hsegments
      exact ⟨hcount.symm, (List.forall₂_cons.mp hsegments).1⟩
  | more a b ha ih =>
    have hb := h.of_append
    rw [parse_append_slash h, splitAt_append_sep, splitAt_of_not_mem ha, List.singleton_append, List.count_append,
      List.count_cons_self, List.count_eq_zero.mpr ha]
    constructor
    · rintro ⟨hcount, hs⟩
      obtain ⟨u, v, rfl, hu, hv⟩ := accepts_append_slash.mp hs
      have hle := count_slash_le hb hv
      rw [List.count_append, List.count_cons_self] at hcount
      -- the slashes behind are needed there, so the text before has none
      have hu0 : u.count '/' = 0 := by omega
      rw [splitAt_append_sep, splitAt_of_not_mem (List.count_eq_zero.mp hu0), List.singleton_append]
      exact .cons hu ((ih hb).mp ⟨by omega, hv⟩)
    · intro hsegments
      obtain ⟨u, more, hu, hmore, hsplit⟩ := List.forall₂_cons_left_iff.mp hsegments
      have hu0 : '/' ∉ u := not_mem_of_mem_splitAt (s := s) (by rw [hsplit]; exact .head _)
      have hne : more ≠ [] := fun hnil => by
        rw [hnil] at hmore
        exact splitAt_ne_nil '/' b (List.forall₂_nil_right_iff.mp hmore)
      rw [← List.singleton_append, ← splitAt_of_not_mem hu0] at hsplit
      obtain ⟨v, rfl, rfl⟩ := (splitAt_eq_append_iff hne).mp hsplit
      obtain ⟨hcount, hv⟩ := (ih hb).mpr hmore
      rw [List.count_append, List.count_cons_self, List.count_eq_zero.mpr hu0]
      exact ⟨by omega, accepts_append_slash.mpr ⟨u, v, rfl, hu, hv⟩⟩

end LayerLint.Glob
