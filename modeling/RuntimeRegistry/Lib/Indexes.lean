import Mathlib
/-!
# Derived indexes

An index lists, under each key, the ids of the records that have the key. It is
filled record by record; what it holds afterwards depends on the records alone.
A grouping keeps the records of a key in a list, in the order they came.
-/

namespace Lib

open Std

namespace Index

variable {κ α ρ : Type} [Ord κ] [TransOrd κ] [LawfulEqOrd κ] [Ord α] [TransOrd α] [LawfulEqOrd α]

/-- The id is entered under the key. -/
def enter (index : ExtTreeMap κ (ExtTreeSet α)) (key : κ) (a : α) : ExtTreeMap κ (ExtTreeSet α) :=
  index.insert key ((index.getD key ∅).insert a)

/-- The index of the records, which have some keys and an id each. -/
def fill (keys : ρ → Option κ) (id : ρ → α) (xs : List ρ) (index : ExtTreeMap κ (ExtTreeSet α)) :
    ExtTreeMap κ (ExtTreeSet α) :=
  xs.foldl (fun index x => match keys x with
    | some key => enter index key (id x)
    | none => index) index

variable {index : ExtTreeMap κ (ExtTreeSet α)} {keys : ρ → Option κ} {id : ρ → α} {xs : List ρ} {k key : κ} {a b : α}

theorem mem_enter : b ∈ (enter index key a).getD k ∅ ↔ (key = k ∧ a = b) ∨ b ∈ index.getD k ∅ := by
  rw [enter, ExtTreeMap.getD_insert]
  split_ifs with h
  · obtain rfl := LawfulEqOrd.eq_of_compare h
    rw [ExtTreeSet.mem_insert, LawfulEqOrd.compare_eq_iff_eq]
    simp
  · have hne : key ≠ k := fun he => h (by rw [he]; exact ReflOrd.compare_self)
    simp [hne]

omit [LawfulEqOrd α] in
theorem mem_enter_key : k ∈ enter index key a ↔ key = k ∨ k ∈ index := by
  rw [enter, ExtTreeMap.mem_insert, LawfulEqOrd.compare_eq_iff_eq]

/-- An id is listed under a key if a record with that id has the key, and only then. -/
theorem mem_fill : b ∈ (fill keys id xs index).getD k ∅ ↔ (∃ x ∈ xs, keys x = some k ∧ id x = b) ∨ b ∈ index.getD k ∅ := by
  induction xs generalizing index with
  | nil => simp [fill]
  | cons x xs ih =>
    rw [fill, List.foldl_cons, ← fill, ih]
    rcases hx : keys x with _ | key
    · simp [hx]
    · simp only [mem_enter, List.mem_cons, exists_eq_or_imp, hx, Option.some.injEq]
      exact or_left_comm.trans or_assoc.symm

omit [LawfulEqOrd α] in
/-- The keys of an index are those of its records. -/
theorem mem_fill_key : k ∈ fill keys id xs index ↔ (∃ x ∈ xs, keys x = some k) ∨ k ∈ index := by
  induction xs generalizing index with
  | nil => simp [fill]
  | cons x xs ih =>
    rw [fill, List.foldl_cons, ← fill, ih]
    rcases hx : keys x with _ | key
    · simp [hx]
    · simp only [mem_enter_key, List.mem_cons, exists_eq_or_imp, hx, Option.some.injEq]
      exact or_left_comm.trans or_assoc.symm

omit [LawfulEqOrd κ] [LawfulEqOrd α] in
/-- An index sees of a record only the part that its keys and its id are read from. -/
theorem fill_map {σ : Type} (part : ρ → σ) (keys : σ → Option κ) (id : σ → α) :
    fill (fun x => keys (part x)) (fun x => id (part x)) xs index = fill keys id (xs.map part) index := by
  rw [fill, fill, List.foldl_map]

/-- What an index lists under a key is as many as the records that have it, where
every record has an id of its own. -/
theorem size_fill (hid : (xs.map id).Nodup) [DecidableEq κ] :
    ((fill keys id xs ∅).getD k ∅).size = (xs.filter fun x => keys x = some k).length := by
  have hnodup : ((xs.filter fun x => keys x = some k).map id).Nodup := hid.sublist (List.filter_sublist.map id)
  have hset : ((fill keys id xs ∅).getD k ∅).toList.Nodup := by
    refine ExtTreeSet.distinct_toList.imp fun {a b} h => ?_
    rintro rfl
    exact h ReflOrd.compare_self
  have hperm : ((fill keys id xs ∅).getD k ∅).toList.Perm ((xs.filter fun x => keys x = some k).map id) := by
    refine (List.perm_ext_iff_of_nodup hset hnodup).2 fun a => ?_
    rw [ExtTreeSet.mem_toList, mem_fill, List.mem_map]
    simp [and_assoc]
  rw [← ExtTreeSet.length_toList, hperm.length_eq, List.length_map]

end Index

/-! ## Groupings -/

namespace Grouping

variable {κ α : Type} [Ord κ] [TransOrd κ] [LawfulEqOrd κ]

/-- The elements with a key, grouped by it. -/
def group (key : α → Option κ) (xs : List α) (m : ExtTreeMap κ (List α)) : ExtTreeMap κ (List α) :=
  xs.foldl (fun m x => match key x with
    | some k => m.insert k (m.getD k [] ++ [x])
    | none => m) m

variable {key : α → Option κ} {xs : List α} {m : ExtTreeMap κ (List α)} {k : κ}

theorem getD_group [DecidableEq κ] : (group key xs m).getD k [] = m.getD k [] ++ xs.filter fun x => key x = some k := by
  induction xs generalizing m with
  | nil => simp [group]
  | cons x xs ih =>
    rw [group, List.foldl_cons, ← group, ih]
    rcases hx : key x with _ | k'
    · simp [hx]
    · rw [ExtTreeMap.getD_insert]
      by_cases hk : k' = k
      · subst hk
        simp [hx, ReflOrd.compare_self]
      · have hne : ¬ compare k' k = .eq := fun h => hk (LawfulEqOrd.eq_of_compare h)
        simp [hne, hx, hk]

theorem mem_group : k ∈ group key xs m ↔ (∃ x ∈ xs, key x = some k) ∨ k ∈ m := by
  induction xs generalizing m with
  | nil => simp [group]
  | cons x xs ih =>
    rw [group, List.foldl_cons, ← group, ih]
    rcases hx : key x with _ | k'
    · simp [hx]
    · simp only [ExtTreeMap.mem_insert, LawfulEqOrd.compare_eq_iff_eq, List.mem_cons, exists_eq_or_imp, hx,
        Option.some.injEq]
      exact or_left_comm.trans or_assoc.symm

end Grouping

end Lib
