import Mathlib.Logic.Function.Basic
/-!
# Parties and what they hold

A resource names one holder at most, and a party lists the resources it works
with. Where every active party holds what it lists, no two active parties list
one resource. The holder is the only place where exclusion is enforced, so the
rules say what a change of the holders or of the parties has to respect.
-/

namespace Lib

/-- The parties `I` and the resources `E` of a state. -/
structure Holdings (I E : Type) where
  active : I → Prop
  lists : I → E → Prop
  holder : E → Option I

namespace Holdings

variable {I E : Type} {H H' : Holdings I E}

/-- Every active party holds what it lists. -/
def Held (H : Holdings I E) : Prop := ∀ i, H.active i → ∀ e, H.lists i e → H.holder e = some i

/-- What active parties hold, they do not share. -/
theorem Held.exclusive (h : H.Held) {i j : I} {e : E} (hi : H.active i) (hj : H.active j) (hie : H.lists i e)
    (hje : H.lists j e) : i = j :=
  Option.some.inj ((h i hi e hie).symm.trans (h j hj e hje))

/-- Each active party was active with its list and keeps its resources, or holds
now what it lists. -/
theorem Held.step (h : H.Held) (hs : ∀ i, H'.active i →
    H.active i ∧ (∀ e, H'.lists i e → H.lists i e ∧ (H.holder e = some i → H'.holder e = some i)) ∨
      ∀ e, H'.lists i e → H'.holder e = some i) : H'.Held := by
  intro i hi e he
  rcases hs i hi with ⟨hactive, hkept⟩ | hheld
  · obtain ⟨hlists, hholder⟩ := hkept e he
    exact hholder (h i hactive e hlists)
  · exact hheld e he

/-- A party that is written lists what it holds, where it is active. -/
theorem Held.write (h : H.Held) (hholder : H'.holder = H.holder) (i : I)
    (hother : ∀ j, j ≠ i → H'.active j → H.active j ∧ ∀ e, H'.lists j e → H.lists j e)
    (hi : H'.active i → ∀ e, H'.lists i e → H.holder e = some i) : H'.Held := by
  apply h.step
  intro j hj
  by_cases hji : j = i
  · subst hji
    rw [hholder]
    exact .inr (hi hj)
  · obtain ⟨hactive, hlists⟩ := hother j hji hj
    exact .inl ⟨hactive, fun e he => ⟨hlists e he, fun hold => hholder ▸ hold⟩⟩

/-- The resource changes hands. -/
def rebind [DecidableEq E] (H : Holdings I E) (e : E) (o : Option I) : Holdings I E :=
  { H with holder := Function.update H.holder e o }

/-- No resource is taken out of the hands of an active party. -/
theorem Held.rebind [DecidableEq E] (h : H.Held) {e : E} {o : Option I}
    (hfree : ∀ i, H.active i → H.lists i e → H.holder e = some i → o = some i) : (H.rebind e o).Held := by
  intro i hi e' hlists
  have hold := h i hi e' hlists
  by_cases he : e' = e
  · subst he
    exact (Function.update_self ..).trans (hfree i hi hlists hold)
  · exact (Function.update_of_ne he ..).trans hold

end Holdings

end Lib
