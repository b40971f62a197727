import Mathlib
/-!
# Finite maps as tables of records

`All P m` says that every record of a map satisfies `P` at its key, `Shows` that
some record has a measure. A map is rebuilt by inserting its records one by one
under their keys, in whatever order they come.
-/

namespace Lib

open Std

variable {κ α β : Type} [Ord κ] [TransOrd κ]

namespace Table

/-- Every record of the table satisfies `P` at its key. -/
def All (P : κ → α → Prop) (m : ExtTreeMap κ α) : Prop := ∀ k x, m[k]? = some x → P k x

theorem All.empty (P : κ → α → Prop) : All P (∅ : ExtTreeMap κ α) := by
  intro k x h
  simp at h

theorem All.mono {P Q : κ → α → Prop} {m : ExtTreeMap κ α} (h : All P m) (hpq : ∀ k x, P k x → Q k x) : All Q m :=
  fun k x hx => hpq k x (h k x hx)

variable [LawfulEqOrd κ]

theorem All.of_toList {P : κ → α → Prop} {m : ExtTreeMap κ α} (h : ∀ kx ∈ m.toList, P kx.1 kx.2) : All P m :=
  fun k x hx => h (k, x) (ExtTreeMap.mem_toList_iff_getElem?_eq_some.2 hx)

theorem All.insert {P : κ → α → Prop} {m : ExtTreeMap κ α} {a : κ} {v : α} (h : All P m) (hv : P a v) :
    All P (m.insert a v) := by
  intro k x hx
  by_cases hk : a = k
  · subst hk
    rw [ExtTreeMap.getElem?_insert_self, Option.some.injEq] at hx
    exact hx ▸ hv
  · rw [ExtTreeMap.getElem?_insert, if_neg (by simpa using hk)] at hx
    exact h k x hx

theorem All.map {P : κ → α → Prop} {Q : κ → β → Prop} {m : ExtTreeMap κ α} {f : α → β} (h : All P m)
    (hf : ∀ k x, P k x → Q k (f x)) : All Q (m.map fun _ => f) := by
  intro k y hy
  rw [ExtTreeMap.getElem?_map, Option.map_eq_some_iff] at hy
  obtain ⟨x, hx, rfl⟩ := hy
  exact hf k x (h k x hx)

theorem All.map_iff {Q : κ → β → Prop} {m : ExtTreeMap κ α} {f : α → β} :
    All Q (m.map fun _ => f) ↔ All (fun k x => Q k (f x)) m := by
  refine ⟨fun h k x hx => ?_, fun h => h.map fun _ _ hx => hx⟩
  refine h k (f x) ?_
  rw [ExtTreeMap.getElem?_map, hx]
  rfl

/-- Storing a record changes no stored record that satisfies `P` if and only if it
is stored over none, or over itself. -/
theorem insert_keeps_iff {P : α → Prop} {m : ExtTreeMap κ α} {a : κ} {v : α} :
    (∀ (k : κ) (x : α), m[k]? = some x → P x → (m.insert a v)[k]? = some x) ↔ ∀ x, m[a]? = some x → P x → v = x := by
  refine ⟨fun h x hx hp => ?_, fun h k x hx hp => ?_⟩
  · have hk := h a x hx hp
    rwa [ExtTreeMap.getElem?_insert_self, Option.some.injEq] at hk
  · by_cases hk : a = k
    · subst hk
      rw [ExtTreeMap.getElem?_insert_self, h x hx hp]
    · rw [ExtTreeMap.getElem?_insert, if_neg (by simpa using hk)]
      exact hx

/-! ## What the records show -/

/-- Some record of the table measures `g`. -/
def Shows (size : α → β) (m : ExtTreeMap κ α) (g : β) : Prop := ∃ (k : κ) (x : α), m[k]? = some x ∧ size x = g

/-- Storing a record shows its measure and no other new one. -/
theorem Shows.insert {size : α → β} {m : ExtTreeMap κ α} {a : κ} {v : α} {g : β} (h : Shows size (m.insert a v) g) : Shows size m g ∨ g = size v := by
  obtain ⟨k, x, hx, rfl⟩ := h
  by_cases hk : a = k
  · subst hk
    rw [ExtTreeMap.getElem?_insert_self, Option.some.injEq] at hx
    exact .inr (hx ▸ rfl)
  · rw [ExtTreeMap.getElem?_insert, if_neg (by simpa using hk)] at hx
    exact .inl ⟨k, x, hx, rfl⟩

/-- Rewriting every record shows no new measure if no record changes its own. -/
theorem Shows.map {size : α → β} {m : ExtTreeMap κ α} {f : α → α} {g : β} (hf : ∀ x, size (f x) = size x) (h : Shows size (m.map fun _ => f) g) : Shows size m g := by
  obtain ⟨k, y, hy, rfl⟩ := h
  rw [ExtTreeMap.getElem?_map, Option.map_eq_some_iff] at hy
  obtain ⟨x, hx, rfl⟩ := hy
  exact ⟨k, x, hx, (hf x).symm⟩

/-! ## Rebuilding a table from its records -/

/-- The records inserted one by one under their keys. -/
def build (key : α → κ) (xs : List α) (m : ExtTreeMap κ α) : ExtTreeMap κ α :=
  xs.foldl (fun m x => m.insert (key x) x) m

theorem build_getElem?_of_notMem {key : α → κ} {xs : List α} {k : κ} (m : ExtTreeMap κ α) (h : k ∉ xs.map key) :
    (build key xs m)[k]? = m[k]? := by
  induction xs generalizing m with
  | nil => rfl
  | cons x xs ih =>
    rw [List.map_cons, List.mem_cons, not_or] at h
    have hne : ¬ key x = k := fun he => h.1 he.symm
    show (build key xs (m.insert (key x) x))[k]? = m[k]?
    rw [ih _ h.2, ExtTreeMap.getElem?_insert, if_neg (by simpa using hne)]

theorem build_getElem?_of_mem {key : α → κ} {xs : List α} {x : α} (m : ExtTreeMap κ α) (hn : (xs.map key).Nodup)
    (hx : x ∈ xs) : (build key xs m)[key x]? = some x := by
  induction xs generalizing m with
  | nil => cases hx
  | cons y ys ih =>
    rw [List.map_cons, List.nodup_cons] at hn
    show (build key ys (m.insert (key y) y))[key x]? = some x
    rcases List.mem_cons.1 hx with rfl | hx
    · rw [build_getElem?_of_notMem _ hn.1, ExtTreeMap.getElem?_insert_self]
    · exact ih _ hn.2 hx

/-- The records of a table, in the order of their keys. -/
def values (m : ExtTreeMap κ α) : List α := m.toList.map (·.2)

theorem mem_values {m : ExtTreeMap κ α} {x : α} : x ∈ values m ↔ ∃ k : κ, m[k]? = some x := by
  constructor
  · intro hx
    obtain ⟨kx, hkx, rfl⟩ := List.mem_map.1 hx
    exact ⟨kx.1, ExtTreeMap.mem_toList_iff_getElem?_eq_some.1 hkx⟩
  · rintro ⟨k, hk⟩
    exact List.mem_map.2 ⟨(k, x), ExtTreeMap.mem_toList_iff_getElem?_eq_some.2 hk, rfl⟩

omit [LawfulEqOrd κ] in
theorem length_values (m : ExtTreeMap κ α) : (values m).length = m.size := by
  rw [values, List.length_map, ExtTreeMap.length_toList]

/-- Where the records know their keys, the keys of the records are the keys. -/
theorem map_key_values {key : α → κ} {m : ExtTreeMap κ α} (hkey : All (fun k x => key x = k) m) :
    (values m).map key = m.keys := by
  rw [← ExtTreeMap.map_fst_toList_eq_keys, values, List.map_map]
  refine List.map_congr_left fun kx hkx => ?_
  exact hkey _ _ (ExtTreeMap.mem_toList_iff_getElem?_eq_some.1 hkx)

/-- A table whose records know their keys is rebuilt from its records. -/
theorem build_values {key : α → κ} {m : ExtTreeMap κ α} (hkey : All (fun k x => key x = k) m) :
    build key (values m) ∅ = m := by
  have hkeys := map_key_values hkey
  have hnodup : ((values m).map key).Nodup := by
    rw [hkeys]
    exact m.nodup_keys
  apply ExtTreeMap.ext_getElem?
  intro k
  rcases hm : m[k]? with _ | x
  · rw [build_getElem?_of_notMem, ExtTreeMap.getElem?_empty]
    rw [hkeys, ExtTreeMap.mem_keys, ExtTreeMap.mem_iff_isSome_getElem?, hm]
    simp
  · rw [← hkey k x hm]
    exact build_getElem?_of_mem _ hnodup (mem_values.2 ⟨k, hm⟩)

end Table

end Lib
