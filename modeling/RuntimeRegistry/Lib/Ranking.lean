import Mathlib
/-!
# Sorting by a strict order on identified entries

Entries carry an id, and `before` orders any two of different ids. A sorted list
of entries with distinct ids is then strictly ordered, and is the same list for
every order in which the entries came.
-/

namespace Lib

variable {α ι : Type}

/-- `before` is a strict order that decides between entries of different ids. -/
structure Ranks (before : α → α → Bool) (id : α → ι) : Prop where
  asymm : ∀ a b, before a b → before b a = false
  trans : ∀ a b c, before a b = false → before b c = false → before a c = false
  total : ∀ a b, id a ≠ id b → before a b ∨ before b a

/-- The entries in order. -/
def ranking (before : α → α → Bool) (xs : List α) : List α := xs.insertionSort fun a b => !before b a

theorem ranking_perm (before : α → α → Bool) (xs : List α) : (ranking before xs).Perm xs :=
  List.perm_insertionSort _ xs

namespace Ranks

variable {before : α → α → Bool} {id : α → ι}

theorem sorted (h : Ranks before id) (xs : List α) : (ranking before xs).Pairwise fun a b => before b a = false := by
  have htotal : Std.Total fun a b : α => (!before b a) = true := ⟨fun a b => by
    rcases hab : before b a
    · exact .inl rfl
    · exact .inr (by rw [h.asymm b a hab]; rfl)⟩
  have htrans : IsTrans α fun a b : α => (!before b a) = true := ⟨fun a b c hab hbc => by
    simp only [Bool.not_eq_true'] at hab hbc ⊢
    exact h.trans c b a hbc hab⟩
  exact (List.pairwise_insertionSort (fun a b : α => (!before b a) = true) xs).imp fun hab => by simpa using hab

/-- Entries with distinct ids are strictly ordered. -/
theorem strict (h : Ranks before id) {xs : List α} (hn : (xs.map id).Nodup) :
    (ranking before xs).Pairwise fun a b => before a b := by
  have hids : ((ranking before xs).map id).Nodup := ((ranking_perm before xs).map id).nodup_iff.2 hn
  rw [List.nodup_iff_pairwise_ne, List.pairwise_map] at hids
  refine ((h.sorted xs).and hids).imp fun {a b} hab => ?_
  rcases h.total a b hab.2 with hlt | hlt
  · exact hlt
  · rw [hab.1] at hlt
    cases hlt

/-- The order in which the entries came does not show. -/
theorem ranking_eq (h : Ranks before id) {xs ys : List α} (hp : xs.Perm ys) (hn : (xs.map id).Nodup) :
    ranking before xs = ranking before ys := by
  have hys : (ys.map id).Nodup := (hp.map id).nodup_iff.1 hn
  refine List.Perm.eq_of_pairwise (fun a b _ _ hab hba => ?_) (h.strict hn) (h.strict hys)
    ((ranking_perm before xs).trans (hp.trans (ranking_perm before ys).symm))
  rw [h.asymm a b hab] at hba
  cases hba

end Ranks

end Lib
