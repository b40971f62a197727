import RuntimeRegistry.Lib.Tables
/-!
# Counting the records of a table

`tally p m` is the number of records that satisfy `p`. Storing a record moves it by
what the record counts and what it replaces counted.
-/

namespace Lib

open Std

variable {κ α : Type} [Ord κ] [TransOrd κ] [LawfulEqOrd κ]

namespace Table

def tally (p : α → Bool) (m : ExtTreeMap κ α) : ℕ := (m.filter fun _ x => p x).size

variable {p : α → Bool} {m : ExtTreeMap κ α} {k : κ} {x y : α}

theorem mem_filter_iff : k ∈ (m.filter fun _ x => p x) ↔ ∃ x, m[k]? = some x ∧ p x = true := by
  rw [ExtTreeMap.mem_iff_isSome_getElem?, ExtTreeMap.getElem?_filter', Option.isSome_filter, Option.any_eq_true]

theorem tally_eq_zero (h : ∀ (k : κ) (x : α), m[k]? = some x → p x = false) : tally p m = 0 := by
  rw [tally, ← ExtTreeMap.eq_empty_iff_size_eq_zero]
  refine ExtTreeMap.ext_getElem? fun k => ?_
  rw [ExtTreeMap.getElem?_filter', ExtTreeMap.getElem?_empty]
  rcases hk : m[k]? with _ | x
  · rfl
  · simp [h k x hk]

theorem tally_pos (h : m[k]? = some x) (hp : p x = true) : 0 < tally p m := by
  by_contra hzero
  rw [tally, Nat.pos_iff_ne_zero, not_not, ← ExtTreeMap.eq_empty_iff_size_eq_zero] at hzero
  have hmem := mem_filter_iff.2 ⟨x, h, hp⟩
  simp [hzero] at hmem

theorem filter_insert_of_pos (hp : p x = true) :
    ((m.insert k x).filter fun _ x => p x) = (m.filter fun _ x => p x).insert k x := by
  refine ExtTreeMap.ext_getElem? fun l => ?_
  rw [ExtTreeMap.getElem?_filter', ExtTreeMap.getElem?_insert, ExtTreeMap.getElem?_insert, ExtTreeMap.getElem?_filter']
  split_ifs
  · simp [hp]
  · rfl

theorem filter_insert_of_neg (hp : p x = false) :
    ((m.insert k x).filter fun _ x => p x) = (m.filter fun _ x => p x).erase k := by
  refine ExtTreeMap.ext_getElem? fun l => ?_
  rw [ExtTreeMap.getElem?_filter', ExtTreeMap.getElem?_insert, ExtTreeMap.getElem?_erase, ExtTreeMap.getElem?_filter']
  split_ifs
  · simp [hp]
  · rfl

/-- A counted record goes where no counted one stood. -/
theorem tally_gain (hold : ∀ y, m[k]? = some y → p y = false) (hp : p x = true) :
    tally p (m.insert k x) = tally p m + 1 := by
  have hnew : k ∉ m.filter fun _ x => p x := by
    rw [mem_filter_iff]
    rintro ⟨y, hy, hpy⟩
    rw [hold y hy] at hpy
    cases hpy
  simp only [tally, filter_insert_of_pos hp, ExtTreeMap.size_insert, ExtTreeMap.contains_iff_mem, if_neg hnew]

/-- A record that does not count replaces one that does. -/
theorem tally_loss (hold : m[k]? = some y) (hpy : p y = true) (hp : p x = false) :
    tally p (m.insert k x) + 1 = tally p m := by
  have hpos := tally_pos hold hpy
  have hmem := mem_filter_iff.2 ⟨y, hold, hpy⟩
  rw [tally] at hpos
  simp only [tally, filter_insert_of_neg hp, ExtTreeMap.size_erase, ExtTreeMap.contains_iff_mem, if_pos hmem]
  omega

/-- A record is stored that counts as what stood there. -/
theorem tally_same (hold : m[k]? = some y) (hp : p x = p y) : tally p (m.insert k x) = tally p m := by
  have hmem : k ∈ (m.filter fun _ x => p x) ↔ p x = true := by
    rw [mem_filter_iff, hp]
    refine ⟨?_, fun h => ⟨y, hold, h⟩⟩
    rintro ⟨z, hz, hpz⟩
    obtain rfl : y = z := Option.some.inj (hold.symm.trans hz)
    exact hpz
  by_cases hx : p x = true
  · simp only [tally, filter_insert_of_pos hx, ExtTreeMap.size_insert, ExtTreeMap.contains_iff_mem, if_pos (hmem.2 hx)]
  · have hx' : p x = false := by simpa using hx
    simp only [tally, filter_insert_of_neg hx', ExtTreeMap.size_erase, ExtTreeMap.contains_iff_mem,
      if_neg fun h => hx (hmem.1 h)]

/-- A record that does not count is stored where none counted. -/
theorem tally_idle (hold : ∀ y, m[k]? = some y → p y = false) (hp : p x = false) :
    tally p (m.insert k x) = tally p m := by
  have hnew : k ∉ m.filter fun _ x => p x := by
    rw [mem_filter_iff]
    rintro ⟨y, hy, hpy⟩
    rw [hold y hy] at hpy
    cases hpy
  simp only [tally, filter_insert_of_neg hp, ExtTreeMap.size_erase, ExtTreeMap.contains_iff_mem, if_neg hnew]

end Table

end Lib
