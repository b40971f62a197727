import Mathlib
/-!
# Checksums over a table

A table-driven checksum of width `w` takes one byte at a time: the low byte of the
state chooses an entry of the table, and the rest of the state moves down by a
byte. Where the entries have distinct top bytes the last state tells the entries
chosen last, so a state tells the one before it, and two runs of at most `w / 8`
bytes from one state end apart unless they are equal.
-/

namespace Lib

namespace Crc

variable {w : ℕ}

/-- One byte of the checksum. -/
def step (T : BitVec 8 → BitVec w) (c : BitVec w) (a : BitVec 8) : BitVec w := T (c.setWidth 8 ^^^ a) ^^^ (c >>> 8)

/-- The entries of the table are told by their top bytes. -/
def Distinct (T : BitVec 8 → BitVec w) : Prop := ∀ i j, T i >>> (w - 8) = T j >>> (w - 8) → i = j

variable {T : BitVec 8 → BitVec w} {c d : BitVec w}

/-- The top of a state is the top of the entry chosen last. -/
theorem step_top (hw : 8 ≤ w) (c : BitVec w) (a : BitVec 8) : step T c a >>> (w - 8) = T (c.setWidth 8 ^^^ a) >>> (w - 8) := by
  rw [step, BitVec.ushiftRight_xor_distrib, ← BitVec.shiftRight_add,
    BitVec.ushiftRight_eq_zero (by omega : w ≤ 8 + (w - 8)), BitVec.xor_zero]

/-- States that agree above their lowest `j` bytes, the top one among them, come from
the same entry and from states that agree above one byte more. -/
theorem step_shift (hT : Distinct T) {j : ℕ} (hj : 8 * (j + 1) ≤ w) {a b : BitVec 8}
    (h : step T c a >>> (8 * j) = step T d b >>> (8 * j)) :
    c.setWidth 8 ^^^ a = d.setWidth 8 ^^^ b ∧ c >>> (8 * (j + 1)) = d >>> (8 * (j + 1)) := by
  have htop : step T c a >>> (w - 8) = step T d b >>> (w - 8) := by
    have hsplit : w - 8 = 8 * j + (w - 8 - 8 * j) := by omega
    rw [hsplit, BitVec.shiftRight_add, BitVec.shiftRight_add, h]
  rw [step_top (by omega), step_top (by omega)] at htop
  have hentry := hT _ _ htop
  refine ⟨hentry, ?_⟩
  rw [step, step, hentry, BitVec.ushiftRight_xor_distrib, BitVec.ushiftRight_xor_distrib, BitVec.xor_right_inj,
    ← BitVec.shiftRight_add, ← BitVec.shiftRight_add] at h
  have hadd : 8 * (j + 1) = 8 + 8 * j := by omega
  rw [hadd, h]

/-- A state is its lowest byte and what lies above. -/
theorem eq_of_low_of_high (hlow : c.setWidth 8 = d.setWidth 8) (hhigh : c >>> 8 = d >>> 8) : c = d := by
  apply BitVec.eq_of_getLsbD_eq
  intro i _
  by_cases hi : i < 8
  · have h := congrArg (·.getLsbD i) hlow
    simpa [hi] using h
  · have h := congrArg (·.getLsbD (i - 8)) hhigh
    have hadd : 8 + (i - 8) = i := by omega
    simpa [hadd] using h

theorem step_injective (hT : Distinct T) (hw : 8 ≤ w) {a : BitVec 8} (h : step T c a = step T d a) : c = d := by
  obtain ⟨hentry, hhigh⟩ := step_shift hT (c := c) (d := d) (j := 0) (a := a) (b := a) (by omega) (by rw [h])
  exact eq_of_low_of_high ((BitVec.xor_left_inj a).1 hentry) (by simpa using hhigh)

/-- Different states stay different over the same bytes. -/
theorem run_injective (hT : Distinct T) (hw : 8 ≤ w) {xs : List (BitVec 8)}
    (h : xs.foldl (step T) c = xs.foldl (step T) d) : c = d := by
  induction xs generalizing c d with
  | nil => exact h
  | cons x xs ih => exact step_injective hT hw (ih h)

/-- Runs of few bytes to states that agree above `j` bytes: before them the states
agreed above as many bytes more, and runs from one state are the same. -/
theorem run_shift (hT : Distinct T) {xs ys : List (BitVec 8)} (hlen : xs.length = ys.length) {j : ℕ}
    (hj : 8 * (j + xs.length) ≤ w) (h : xs.foldl (step T) c >>> (8 * j) = ys.foldl (step T) d >>> (8 * j)) :
    c >>> (8 * (j + xs.length)) = d >>> (8 * (j + xs.length)) ∧ (c = d → xs = ys) := by
  induction xs generalizing ys c d with
  | nil =>
    obtain rfl := List.length_eq_zero_iff.1 hlen.symm
    exact ⟨h, fun _ => rfl⟩
  | cons x xs ih =>
    rcases ys with _ | ⟨y, ys⟩
    · cases hlen
    · rw [List.length_cons, List.length_cons, Nat.succ_inj] at hlen
      rw [List.length_cons, ← Nat.add_assoc] at hj
      obtain ⟨hhigh, hrest⟩ := ih hlen (by omega) h
      obtain ⟨hentry, hmore⟩ := step_shift hT hj hhigh
      refine ⟨by rwa [List.length_cons, ← Nat.add_assoc], ?_⟩
      rintro rfl
      obtain rfl : x = y := (BitVec.xor_right_inj _).1 hentry
      rw [hrest rfl]

/-- A run of few bytes between equal bytes is told by the checksum. -/
theorem burst (hT : Distinct T) (hw : 8 ≤ w) {pre xs ys post : List (BitVec 8)} (hlen : xs.length = ys.length)
    (hshort : 8 * xs.length ≤ w)
    (h : (pre ++ xs ++ post).foldl (step T) c = (pre ++ ys ++ post).foldl (step T) c) : xs = ys := by
  simp only [List.foldl_append] at h
  have hmid := run_injective hT hw h
  exact (run_shift hT hlen (j := 0) (by omega) (by rw [hmid])).2 rfl

end Crc

end Lib
