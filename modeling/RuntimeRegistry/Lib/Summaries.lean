import Mathlib
/-!
# Loops that summarize a list

Two shapes of a loop over a list, and when they do not show the order of the list.
A loop that lets each element weigh on a running value does not, if weights join:
it is one step by their supremum. A loop that returns at the first element with a
verdict does, unless all verdicts agree.
-/

namespace Lib

variable {α β S A : Type}

/-! ## Weights that join -/

section
variable [SemilatticeSup A] [OrderBot A]

/-- Two weights in a row weigh as much as their supremum, and the least one
weighs nothing. -/
structure Joins (weigh : S → A → S) : Prop where
  bot : ∀ s, weigh s ⊥ = s
  sup : ∀ s a b, weigh (weigh s a) b = weigh s (a ⊔ b)

/-- The supremum of the weights of a list. -/
def heaviest (weight : α → A) (xs : List α) : A := (Multiset.map weight (xs : Multiset α)).sup

@[simp] theorem heaviest_nil (weight : α → A) : heaviest weight [] = ⊥ := rfl

@[simp] theorem heaviest_cons (weight : α → A) (x : α) (xs : List α) :
    heaviest weight (x :: xs) = weight x ⊔ heaviest weight xs := by
  rw [heaviest, ← Multiset.cons_coe, Multiset.map_cons, Multiset.sup_cons]
  rfl

theorem heaviest_perm (weight : α → A) {xs ys : List α} (h : xs.Perm ys) : heaviest weight xs = heaviest weight ys := by
  rw [heaviest, heaviest, Multiset.coe_eq_coe.2 h]

theorem heaviest_le {weight : α → A} {xs : List α} {a : A} : heaviest weight xs ≤ a ↔ ∀ x ∈ xs, weight x ≤ a := by
  rw [heaviest, Multiset.sup_le]
  simp

theorem le_heaviest {weight : α → A} {xs : List α} {x : α} (h : x ∈ xs) : weight x ≤ heaviest weight xs :=
  heaviest_le.1 le_rfl x h

theorem lt_heaviest {B : Type} [LinearOrder B] [OrderBot B] {weight : α → B} {xs : List α} {b : B} :
    b < heaviest weight xs ↔ ∃ x ∈ xs, b < weight x := by
  rw [← not_le, heaviest_le]
  push Not
  rfl

namespace Joins

variable {weigh : S → A → S}

/-- The loop is one step by the supremum. -/
theorem foldl (h : Joins weigh) (weight : α → A) (xs : List α) (s : S) :
    xs.foldl (fun s x => weigh s (weight x)) s = weigh s (heaviest weight xs) := by
  induction xs generalizing s with
  | nil => exact (h.bot s).symm
  | cons x xs ih => rw [List.foldl_cons, ih, h.sup, heaviest_cons]

/-- What weighed in once does not weigh in again. -/
theorem again (h : Joins weigh) (s : S) (a : A) : weigh (weigh s a) a = weigh s a := by
  rw [h.sup, sup_idem]

end Joins

end

/-! ## Verdicts -/

/-- A loop that returns at the first verdict gives the same for every order of the
list if any two verdicts agree, and only then. -/
theorem findSome?_perm_iff (verdict : α → Option β) (xs : List α) :
    (∀ ys : List α, ys.Perm xs → ys.findSome? verdict = xs.findSome? verdict) ↔
      ∀ x ∈ xs, ∀ y ∈ xs, ∀ a b, verdict x = some a → verdict y = some b → a = b := by
  classical
  constructor
  · -- an element with a verdict can stand first
    intro h x hx y hy a b ha hb
    have hfirst : ∀ z ∈ xs, ∀ c, verdict z = some c → xs.findSome? verdict = some c := by
      intro z hz c hc
      rw [← h _ (List.perm_cons_erase hz).symm, List.findSome?_cons, hc]
    exact Option.some.inj ((hfirst x hx a ha).symm.trans (hfirst y hy b hb))
  · intro h ys hp
    rcases hys : ys.findSome? verdict with _ | b
    · have hnone : ∀ x ∈ xs, verdict x = none := fun x hx => List.findSome?_eq_none_iff.1 hys x (hp.mem_iff.2 hx)
      exact (List.findSome?_eq_none_iff.2 hnone).symm
    · obtain ⟨y, hy, hb⟩ := List.exists_of_findSome?_eq_some hys
      rcases hxs : xs.findSome? verdict with _ | a
      · rw [List.findSome?_eq_none_iff.1 hxs y (hp.mem_iff.1 hy)] at hb
        cases hb
      · obtain ⟨x, hx, ha⟩ := List.exists_of_findSome?_eq_some hxs
        rw [h x hx y (hp.mem_iff.1 hy) a b ha hb]

end Lib
