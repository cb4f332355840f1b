import Mathlib.Data.List.Basic

/-!
# Outcomes

What it means for a computation that may fail that it has succeeded, or has not.

* `except_bind_eq_ok` and `except_bind_eq_error` — one step after another.
* `except_map_eq_ok` and `except_map_eq_error` — a result that is changed.
* `mapError_eq_ok` and `mapError_eq_error` — a fault that is changed.
* `bind_eq_ok` and `bind_eq_error` — one step after another, if steps change a state.
* `succeeds` and `fails` — checks of an outcome that can be run.
-/

namespace OnePage

lemma except_bind_eq_ok {ε α β : Type} {first : Except ε α} {next : α → Except ε β} {b : β} :
    (first >>= next) = .ok b ↔ ∃ a, first = .ok a ∧ next a = .ok b := by
  simp only [bind, Except.bind]
  cases first <;> simp

lemma except_bind_eq_error {ε α β : Type} {first : Except ε α} {next : α → Except ε β} {e : ε} :
    (first >>= next) = .error e ↔ first = .error e ∨ ∃ a, first = .ok a ∧ next a = .error e := by
  simp only [bind, Except.bind]
  cases first <;> simp

lemma except_map_eq_ok {ε α β : Type} {x : Except ε α} {f : α → β} {b : β} :
    x.map f = .ok b ↔ ∃ a, x = .ok a ∧ f a = b := by
  cases x <;> simp [Except.map]

lemma except_map_eq_error {ε α β : Type} {x : Except ε α} {f : α → β} {e : ε} :
    x.map f = .error e ↔ x = .error e := by
  cases x <;> simp [Except.map]

lemma mapError_eq_ok {ε ε' α : Type} {x : Except ε α} {f : ε → ε'} {a : α} :
    x.mapError f = .ok a ↔ x = .ok a := by
  cases x <;> simp [Except.mapError]

lemma mapError_eq_error {ε ε' α : Type} {x : Except ε α} {f : ε → ε'} {e : ε'} :
    x.mapError f = .error e ↔ ∃ fault, x = .error fault ∧ f fault = e := by
  cases x <;> simp [Except.mapError]

/-! ## Steps that change a state -/

section State

variable {ε σ α β : Type} {first : EStateM ε σ α} {next : α → EStateM ε σ β} {state final : σ}

lemma bind_eq_ok {b : β} : (first >>= next) state = .ok b final ↔
    ∃ a middle, first state = .ok a middle ∧ next a middle = .ok b final := by
  simp only [bind, EStateM.bind]
  cases first state <;> simp

lemma bind_eq_error {e : ε} : (first >>= next) state = .error e final ↔
    first state = .error e final ∨
      ∃ a middle, first state = .ok a middle ∧ next a middle = .error e final := by
  simp only [bind, EStateM.bind]
  cases first state <;> simp

variable {result : EStateM.Result ε σ α}

/-- Whether something succeeds, and what it returns and leaves passes a check. -/
def succeeds (result : EStateM.Result ε σ α) (check : α → σ → Bool) : Bool :=
  match result with
  | .ok a after => check a after
  | .error _ _ => false

/-- Whether something fails, and what it fails with and leaves passes a check. -/
def fails (result : EStateM.Result ε σ α) (check : ε → σ → Bool) : Bool :=
  match result with
  | .ok _ _ => false
  | .error e after => check e after

lemma exists_of_succeeds {check : α → σ → Bool} (h : succeeds result check = true) :
    ∃ a after, result = .ok a after ∧ check a after = true := by
  cases result with
  | ok a after => exact ⟨a, after, rfl, h⟩
  | error e after => simp [succeeds] at h

lemma exists_of_fails {check : ε → σ → Bool} (h : fails result check = true) :
    ∃ e after, result = .error e after ∧ check e after = true := by
  cases result with
  | ok a after => simp [fails] at h
  | error e after => exact ⟨e, after, rfl, h⟩

end State

end OnePage
