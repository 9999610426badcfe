import LayerLint.Log
import Mathlib.Data.List.Forall2
import Mathlib.Tactic.Common

/-!
# Computations that have a result

A computation with several steps has a result when each step has one. `Result.Fails` says that it ends with an error of
a kind. What a computation writes to the log does not change its result.
-/

namespace LayerLint.Result

variable {ε ε' α β : Type} {x : Except ε α}

@[simp] theorem ok_bind {a : α} {f : α → Except ε β} : (Except.ok a >>= f) = f a :=
  rfl

@[simp] theorem error_bind {e : ε} {f : α → Except ε β} : (Except.error e >>= f) = .error e :=
  rfl

theorem bind_eq_ok {f : α → Except ε β} {b : β} : (x >>= f) = .ok b ↔ ∃ a, x = .ok a ∧ f a = .ok b := by
  cases x <;> simp [bind, Except.bind]

theorem map_eq_ok {f : α → β} {b : β} : x.map f = .ok b ↔ ∃ a, x = .ok a ∧ f a = b := by
  cases x <;> simp [Except.map]

theorem mapError_eq_ok {f : ε → ε'} {a : α} : x.mapError f = .ok a ↔ x = .ok a := by
  cases x <;> simp [Except.mapError]

theorem pure_eq_ok {a b : α} : (pure a : Except ε α) = .ok b ↔ a = b := by
  simp [pure, Except.pure]

theorem exists_bind_eq_ok {f : α → Except ε β} :
    (∃ b, (x >>= f) = .ok b) ↔ ∃ a, x = .ok a ∧ ∃ b, f a = .ok b := by
  cases x <;> simp [bind, Except.bind]

theorem exists_pure_eq_ok {a : α} : (∃ b, (pure a : Except ε α) = .ok b) ↔ True :=
  iff_true_intro ⟨a, rfl⟩

/-- All items have a result when each of them has one. -/
theorem exists_mapM_eq_ok {f : α → Except ε β} {items : List α} :
    (∃ results, items.mapM f = .ok results) ↔ ∀ a ∈ items, ∃ b, f a = .ok b := by
  induction items with
  | nil => simp [pure, Except.pure]
  | cons a rest ih =>
    simp only [List.mapM_cons, bind_eq_ok, pure_eq_ok, List.forall_mem_cons, ← ih]
    grind

/-- The results of all items are those of each of them. -/
theorem mapM_eq_ok_iff {f : α → Except ε β} {items : List α} {results : List β} :
    items.mapM f = .ok results ↔ List.Forall₂ (fun a b => f a = .ok b) items results := by
  induction items generalizing results with
  | nil => simp [pure, Except.pure, eq_comm]
  | cons a rest ih =>
    simp only [List.mapM_cons, bind_eq_ok, pure_eq_ok, List.forall₂_cons_left_iff, ih]
    grind

/-- A result can be checked without being written down. -/
theorem exists_of_any (x : Except ε α) (p : α → Bool) (h : x.toOption.any p = true) :
    ∃ a, x = .ok a ∧ p a = true := by
  cases x with
  | error e => cases h
  | ok a => exact ⟨a, rfl, h⟩

theorem eq_ok_of_toOption {a : α} (h : x.toOption = some a) : x = .ok a := by
  cases x with
  | error e => cases h
  | ok b => exact congrArg Except.ok (Option.some.inj h)

/-! ## Errors of a kind -/

section Fails

variable {bad : ε → Bool}

/-- The computation ends with an error of a kind. -/
def Fails (bad : ε → Bool) (x : Except ε α) : Prop := ∃ e, x = .error e ∧ bad e = true

@[simp] theorem fails_error {e : ε} : Fails bad (.error e : Except ε α) ↔ bad e = true := by
  simp [Fails]

@[simp] theorem not_fails_ok {a : α} : ¬ Fails bad (.ok a : Except ε α) := by
  simp [Fails]

@[simp] theorem not_fails_pure {a : α} : ¬ Fails bad (pure a : Except ε α) :=
  not_fails_ok

/-- Steps fail with the first, or with a later one after that. -/
theorem fails_bind {f : α → Except ε β} :
    Fails bad (x >>= f) ↔ Fails bad x ∨ ∃ a, x = .ok a ∧ Fails bad (f a) := by
  cases x <;> simp [bind, Except.bind]

theorem fails_mapError {f : ε → ε'} {bad : ε' → Bool} : Fails bad (x.mapError f) ↔ Fails (fun e => bad (f e)) x := by
  cases x <;> simp [Except.mapError]

/-- Items fail with the first that does not come through. -/
theorem fails_mapM {f : α → Except ε β} {items : List α} : Fails bad (items.mapM f) ↔
    ∃ before a after, items = before ++ a :: after ∧ (∀ b ∈ before, ∃ c, f b = .ok c) ∧ Fails bad (f a) := by
  induction items with
  | nil => simp
  | cons item rest ih =>
    rw [List.mapM_cons, fails_bind]
    constructor
    · rintro (h | ⟨c, hc, h⟩)
      · exact ⟨[], item, rest, rfl, by simp, h⟩
      · rcases fails_bind.mp h with h | ⟨_, -, h⟩
        · obtain ⟨before, a, after, rfl, hbefore, ha⟩ := ih.mp h
          exact ⟨item :: before, a, after, rfl, List.forall_mem_cons.mpr ⟨⟨c, hc⟩, hbefore⟩, ha⟩
        · exact absurd h not_fails_pure
    · rintro ⟨before, a, after, heq, hbefore, ha⟩
      cases before with
      | nil =>
        obtain ⟨rfl, rfl⟩ := List.cons.inj heq
        exact .inl ha
      | cons b before =>
        obtain ⟨rfl, rfl⟩ := List.cons.inj heq
        obtain ⟨⟨c, hc⟩, hbefore⟩ := List.forall_mem_cons.mp hbefore
        exact .inr ⟨c, hc, fails_bind.mpr (.inl (ih.mpr ⟨before, a, after, rfl, hbefore, ha⟩))⟩

/-- A computation whose errors are all of a kind fails with one where it has no result. -/
theorem fails_iff_not_exists (h : ¬ Fails (fun e => !bad e) x) : Fails bad x ↔ ¬ ∃ a, x = .ok a := by
  cases x with
  | ok a => simp
  | error e => simpa using h

end Fails

end LayerLint.Result

/-! ## Computations with a log -/

namespace LayerLint.Logged

variable {ε α β : Type}

theorem result_bind {x : Logged ε α} {f : α → Logged ε β} :
    (x >>= f).result = x.result >>= fun a => (f a).result := by
  show (x.andThen f).result = _
  rw [Logged.andThen]
  cases x.result <;> rfl

@[simp] theorem result_pure (a : α) : (pure a : Logged ε α).result = .ok a :=
  rfl

@[simp] theorem result_ofExcept (x : Except ε α) : (ofExcept x).result = x :=
  rfl

@[simp] theorem result_note (level : LogLevel) (source : LogSource) (message : String) :
    (note level source message : Logged ε Unit).result = .ok () :=
  rfl

@[simp] theorem result_notes (records : List LogRecord) : (notes records : Logged ε Unit).result = .ok () :=
  rfl

theorem lawfulMonad : LawfulMonad (Logged ε) := by
  refine .mk' _ (fun x => ?_) (fun a f => ?_) (fun x f g => ?_)
  · obtain ⟨log, result⟩ := x
    cases result <;> simp [Functor.map, andThen]
  · simp [bind, andThen, pure]
  · obtain ⟨log, result⟩ := x
    cases result with
    | error e => rfl
    | ok a =>
      cases h : (f a).result <;> simp [bind, andThen, h]

theorem result_mapM {f : α → Logged ε β} {items : List α} :
    (items.mapM f).result = items.mapM fun a => (f a).result := by
  have hlawful : LawfulMonad (Logged ε) := lawfulMonad
  induction items with
  | nil => rfl
  | cons a rest ih =>
    rw [List.mapM_cons, List.mapM_cons, result_bind]
    simp only [result_bind, result_pure, ih]
    rfl

end LayerLint.Logged
