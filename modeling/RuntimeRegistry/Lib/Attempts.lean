import Mathlib
/-!
# Computations that may throw

Whether a chain of reads goes through, and what holds of its result, read off step
by step.
-/

namespace Lib

variable {ε α β : Type}

/-- The computation throws nothing. -/
def Succeeds (x : Except ε α) : Prop := ∃ a, x = .ok a

/-- What the computation returns, if it returns, satisfies `P`. -/
def Ensures (P : α → Prop) (x : Except ε α) : Prop := ∀ a, x = .ok a → P a

@[simp] theorem succeeds_ok (a : α) : Succeeds (.ok a : Except ε α) := ⟨a, rfl⟩

@[simp] theorem succeeds_pure (a : α) : Succeeds (pure a : Except ε α) := ⟨a, rfl⟩

@[simp] theorem not_succeeds_error (e : ε) : ¬ Succeeds (.error e : Except ε α) := by
  rintro ⟨a, h⟩
  cases h

/-- A chain goes through if its first step does and, whatever that returns, the rest. -/
theorem succeeds_bind {x : Except ε α} {k : α → Except ε β} {P : Prop} (h : ∀ a, x = .ok a → (Succeeds (k a) ↔ P)) :
    Succeeds (x >>= k) ↔ Succeeds x ∧ P := by
  cases x with
  | error e => exact iff_of_false (not_succeeds_error e) fun hx => not_succeeds_error e hx.1
  | ok a => rw [and_iff_right (succeeds_ok a)]; exact h a rfl

theorem ensures_pure {P : α → Prop} {a : α} (h : P a) : Ensures P (pure a : Except ε α) := by
  rintro _ ⟨⟩
  exact h

theorem ensures_bind {P : β → Prop} {x : Except ε α} {k : α → Except ε β} (h : ∀ a, x = .ok a → Ensures P (k a)) :
    Ensures P (x >>= k) := by
  cases x with
  | error e => rintro b ⟨⟩
  | ok a => exact h a rfl

theorem ensures_ite {P : α → Prop} {c : Prop} [Decidable c] {x y : Except ε α} (hx : c → Ensures P x) (hy : ¬ c → Ensures P y) :
    Ensures P (if c then x else y) := by
  by_cases h : c
  · rw [if_pos h]; exact hx h
  · rw [if_neg h]; exact hy h

end Lib
