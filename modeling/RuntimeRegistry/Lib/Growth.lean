import RuntimeRegistry.Lib.Tables
/-!
# Tables whose records only grow

A measure of the records orders the tables. A table has grown when every key is
still there with a record that measures no less, and is renewed when every record
is still there or replaced by one that measures more.
-/

namespace Lib

open Std

variable {κ α γ : Type} [Ord κ] [TransOrd κ] [Preorder γ] {size : α → γ} {m m' m'' : ExtTreeMap κ α}

namespace Table

def Grows (size : α → γ) (m m' : ExtTreeMap κ α) : Prop :=
  ∀ (k : κ) (x : α), m[k]? = some x → ∃ y, m'[k]? = some y ∧ size x ≤ size y

def Renews (size : α → γ) (m m' : ExtTreeMap κ α) : Prop :=
  ∀ (k : κ) (x : α), m[k]? = some x → ∃ y, m'[k]? = some y ∧ (y = x ∨ size x < size y)

theorem Grows.refl (size : α → γ) (m : ExtTreeMap κ α) : Grows size m m := fun _ x hx => ⟨x, hx, le_rfl⟩

theorem Grows.trans (h : Grows size m m') (h' : Grows size m' m'') : Grows size m m'' := by
  intro k x hx
  obtain ⟨y, hy, hxy⟩ := h k x hx
  obtain ⟨z, hz, hyz⟩ := h' k y hy
  exact ⟨z, hz, hxy.trans hyz⟩

theorem Renews.refl (size : α → γ) (m : ExtTreeMap κ α) : Renews size m m := fun _ x hx => ⟨x, hx, .inl rfl⟩

theorem Renews.grows (h : Renews size m m') : Grows size m m' := by
  intro k x hx
  obtain ⟨y, hy, hxy⟩ := h k x hx
  exact ⟨y, hy, hxy.elim (fun he => he ▸ le_rfl) fun hlt => hlt.le⟩

variable [LawfulEqOrd κ] {a : κ} {v : α}

/-- Storing a record renews the table if what it replaces measures less. -/
theorem Renews.insert (h : ∀ x, m[a]? = some x → size x < size v) : Renews size m (m.insert a v) := by
  intro k x hx
  by_cases hk : a = k
  · subst hk
    exact ⟨v, by simp, .inr (h x hx)⟩
  · exact ⟨x, by simpa [ExtTreeMap.getElem?_insert, hk] using hx, .inl rfl⟩

/-- Rewriting every record grows the table if no record loses. -/
theorem Grows.map {f : α → α} (h : ∀ x, size x ≤ size (f x)) : Grows size m (m.map fun _ => f) := by
  intro k x hx
  exact ⟨f x, by simp [hx], h x⟩

end Table

end Lib
