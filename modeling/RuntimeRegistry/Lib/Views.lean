import RuntimeRegistry.Lib.Tables
/-!
# Views of the newest record of a group

The records of a table fall into groups, and a second table shows one record for
each group. The view is exact when the record it shows is the one that the table
holds and no record of the group is newer. A record enters both tables at once,
or takes the place of an older one in the table alone.
-/

namespace Lib

open Std

variable {κ γ ρ ν : Type} [Ord κ] [TransOrd κ] [Ord γ] [TransOrd γ] [LinearOrder ν]
  {key : ρ → κ} {group : ρ → γ} {rank : ρ → ν} {view : ExtTreeMap γ ρ} {table : ExtTreeMap κ ρ}

/-- The view shows records of the table, and the newest of each group that it shows. -/
structure Latest (key : ρ → κ) (group : ρ → γ) (rank : ρ → ν) (view : ExtTreeMap γ ρ) (table : ExtTreeMap κ ρ) :
    Prop where
  stored : ∀ (g : γ) (x : ρ), view[g]? = some x → table[key x]? = some x
  newest : ∀ (g : γ) (x : ρ), view[g]? = some x → ∀ (k : κ) (y : ρ), table[k]? = some y → group y = g → rank y ≤ rank x

namespace Latest

theorem empty (table : ExtTreeMap κ ρ) : Latest key group rank ∅ table where
  stored g x hx := by simp at hx
  newest g x hx := by simp at hx

variable [LawfulEqOrd κ]

/-- A record that takes another's place in the table alone leaves the view exact if
and only if the view does not show the other, and shows for the group no older one. -/
theorem replace_iff (h : Latest key group rank view table) {x current : ρ} (hold : table[key x]? = some current)
    (hne : current ≠ x) :
    Latest key group rank view (table.insert (key x) x) ↔
      ∀ (g : γ) (y : ρ), view[g]? = some y → key y ≠ key x ∧ (group x = g → rank x ≤ rank y) := by
  refine ⟨fun h' g y hy => ⟨fun hk => hne ?_, fun hg => ?_⟩, fun hfree => ⟨fun g y hy => ?_, fun g y hy k z hz hg => ?_⟩⟩
  · have hbefore := h.stored g y hy
    have hafter := h'.stored g y hy
    rw [hk, hold, Option.some.injEq] at hbefore
    rw [hk, ExtTreeMap.getElem?_insert_self, Option.some.injEq] at hafter
    exact hbefore.trans hafter.symm
  · exact h'.newest g y hy (key x) x ExtTreeMap.getElem?_insert_self hg
  · rw [ExtTreeMap.getElem?_insert, if_neg (by simpa using (hfree g y hy).1.symm)]
    exact h.stored g y hy
  · by_cases hk : key x = k
    · subst hk
      rw [ExtTreeMap.getElem?_insert_self, Option.some.injEq] at hz
      subst hz
      exact (hfree g y hy).2 hg
    · rw [ExtTreeMap.getElem?_insert, if_neg (by simpa using hk)] at hz
      exact h.newest g y hy k z hz hg

variable [LawfulEqOrd γ]

/-- A record enters both tables: it is the newest of its group, and what it replaces
in the table is shown for no other group. -/
theorem insert (h : Latest key group rank view table) {x : ρ}
    (hnewest : ∀ (k : κ) (y : ρ), table[k]? = some y → k ≠ key x → group y = group x → rank y ≤ rank x)
    (hfree : ∀ (g : γ) (y : ρ), view[g]? = some y → g ≠ group x → key y ≠ key x) :
    Latest key group rank (view.insert (group x) x) (table.insert (key x) x) where
  stored := by
    intro g y hy
    by_cases hg : group x = g
    · subst hg
      rw [ExtTreeMap.getElem?_insert_self, Option.some.injEq] at hy
      rw [← hy, ExtTreeMap.getElem?_insert_self]
    · rw [ExtTreeMap.getElem?_insert, if_neg (by simpa using hg)] at hy
      have hne := hfree g y hy (Ne.symm hg)
      rw [ExtTreeMap.getElem?_insert, if_neg (by simpa using hne.symm)]
      exact h.stored g y hy
  newest := by
    intro g y hy k z hz hgroup
    by_cases hg : group x = g
    · subst hg
      rw [ExtTreeMap.getElem?_insert_self, Option.some.injEq] at hy
      subst hy
      by_cases hk : key x = k
      · subst hk
        rw [ExtTreeMap.getElem?_insert_self, Option.some.injEq] at hz
        exact hz ▸ le_rfl
      · rw [ExtTreeMap.getElem?_insert, if_neg (by simpa using hk)] at hz
        exact hnewest k z hz (Ne.symm hk) hgroup
    · rw [ExtTreeMap.getElem?_insert, if_neg (by simpa using hg)] at hy
      by_cases hk : key x = k
      · subst hk
        rw [ExtTreeMap.getElem?_insert_self, Option.some.injEq] at hz
        exact absurd (hz ▸ hgroup) hg
      · rw [ExtTreeMap.getElem?_insert, if_neg (by simpa using hk)] at hz
        exact h.newest g y hy k z hz hgroup

end Latest

end Lib
