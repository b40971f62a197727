import Mathlib
/-!
# Texts cut at separators

A search finds the first separator from a position on. Where the separator does not
stand in the part before it, the search finds the cut and nothing else, so a text is
cut into the same parts by every search.
-/

namespace Lib

variable {α : Type} [DecidableEq α]

/-- The first position from `i` on that holds `c`. -/
def find (c : α) (s : List α) (i : ℕ) : Option ℕ := ((s.drop i).findIdx? (· = c)).map (i + ·)

theorem findIdx?_none {c : α} {s : List α} (h : c ∉ s) : s.findIdx? (· = c) = none := by
  rw [List.findIdx?_eq_none_iff]
  intro d hd
  simpa using fun heq : d = c => h (heq ▸ hd)

theorem find_none {c : α} {s : List α} {i : ℕ} (h : c ∉ s.drop i) : find c s i = none := by
  rw [find, findIdx?_none h, Option.map_none]

theorem find_some {c : α} {s a b : List α} {i : ℕ} (h : s.drop i = a ++ c :: b) (ha : c ∉ a) :
    find c s i = some (i + a.length) := by
  rw [find, h, List.findIdx?_append, findIdx?_none ha]
  simp [List.findIdx?_cons]

/-- There is no separator, or the text is cut at the first one. -/
theorem find_cases (c : α) (s : List α) (i : ℕ) :
    (c ∉ s.drop i ∧ find c s i = none) ∨
      ∃ a b, s.drop i = a ++ c :: b ∧ c ∉ a ∧ find c s i = some (i + a.length) := by
  by_cases hc : c ∈ s.drop i
  · obtain ⟨a, b, hs, ha⟩ := List.eq_append_cons_of_mem hc
    exact .inr ⟨a, b, hs, ha, find_some hs ha⟩
  · exact .inl ⟨hc, find_none hc⟩

theorem find_eq_some {c : α} {s : List α} {k : ℕ} (h : find c s 0 = some k) :
    s = s.take k ++ c :: s.drop (k + 1) ∧ c ∉ s.take k := by
  obtain ⟨_, hnone⟩ | ⟨a, b, hs, ha, hsome⟩ := find_cases c s 0
  · rw [h] at hnone
    cases hnone
  · rw [h, Option.some_inj, Nat.zero_add] at hsome
    rw [List.drop_zero] at hs
    subst hsome hs
    simp [ha]

/-- A text is cut at its first separator in one way. -/
theorem cut_inj {c : α} {a b a' b' : List α} (h : a ++ c :: b = a' ++ c :: b') (ha : c ∉ a) (ha' : c ∉ a') :
    a = a' ∧ b = b' := by
  have hfind := find_some (i := 0) (s := a ++ c :: b) rfl ha
  rw [find_some (i := 0) (s := a ++ c :: b) h ha', Option.some_inj] at hfind
  exact (List.append_inj h (by omega)).imp id fun h => (List.cons.inj h).2

end Lib
