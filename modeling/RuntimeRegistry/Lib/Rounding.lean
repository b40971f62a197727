import Mathlib
/-!
# Rounding to so many binary digits

A number is rounded to the nearest multiple of the unit in its last place, to the even
one of two. The exponent is without bound, as for numbers far from the ends of a format.
-/

namespace Lib

variable {x y t : ℚ} {p : ℕ}

/-! ## To an integer -/

/-- The nearest integer, and the even one of two. -/
def nearest (x : ℚ) : ℤ :=
  if x - ⌊x⌋ < 1 / 2 then ⌊x⌋
  else if 1 / 2 < x - ⌊x⌋ then ⌊x⌋ + 1
  else if Even ⌊x⌋ then ⌊x⌋ else ⌊x⌋ + 1

theorem nearest_range (x : ℚ) : ⌊x⌋ ≤ nearest x ∧ nearest x ≤ ⌊x⌋ + 1 := by
  unfold nearest
  split_ifs <;> omega

theorem nearest_mono (h : x ≤ y) : nearest x ≤ nearest y := by
  rcases (Int.floor_mono h).eq_or_lt with heq | hlt
  · -- the fractions are in the order of the numbers
    have hfraction : x - ⌊y⌋ ≤ y - ⌊y⌋ := sub_le_sub_right h _
    simp only [nearest, heq]
    split_ifs <;> first | omega | linarith
  · have hx := (nearest_range x).2
    have hy := (nearest_range y).1
    omega

theorem nearest_intCast (n : ℤ) : nearest n = n := by
  simp [nearest]

/-! ## To a last place -/

/-- The unit in the last of `p` places. -/
def ulp (p : ℕ) (x : ℚ) : ℚ := 2 ^ (Int.log 2 |x| - (p - 1))

/-- The number with `p` binary digits that is nearest. -/
def rounded (p : ℕ) (x : ℚ) : ℚ := nearest (x / ulp p x) * ulp p x

theorem ulp_pos (p : ℕ) (x : ℚ) : 0 < ulp p x := zpow_pos (by norm_num) _

/-- A multiple of the unit in the last place. -/
def OnGrid (p : ℕ) (x t : ℚ) : Prop := ∃ k : ℤ, t = k * ulp p x

theorem onGrid_zpow {e : ℤ} (m : ℤ) (he : Int.log 2 |x| - (p - 1) ≤ e) : OnGrid p x (m * 2 ^ e) := by
  obtain ⟨d, hd⟩ := Int.eq_ofNat_of_zero_le (sub_nonneg.2 he)
  refine ⟨m * 2 ^ d, ?_⟩
  have hsplit : (2 : ℚ) ^ e = 2 ^ d * ulp p x := by
    rw [ulp, ← zpow_natCast, ← hd, ← zpow_add₀ (by norm_num)]
    congr 1
    ring
  rw [hsplit]
  push_cast
  ring

theorem OnGrid.le_rounded (ht : OnGrid p x t) (h : t ≤ x) : t ≤ rounded p x := by
  obtain ⟨k, rfl⟩ := ht
  have hk : (k : ℚ) ≤ x / ulp p x := (le_div_iff₀ (ulp_pos p x)).2 h
  have hnearest : k ≤ nearest (x / ulp p x) := nearest_intCast k ▸ nearest_mono hk
  exact mul_le_mul_of_nonneg_right (by exact_mod_cast hnearest) (ulp_pos p x).le

theorem OnGrid.rounded_le (ht : OnGrid p x t) (h : x ≤ t) : rounded p x ≤ t := by
  obtain ⟨k, rfl⟩ := ht
  have hk : x / ulp p x ≤ k := (div_le_iff₀ (ulp_pos p x)).2 h
  have hnearest : nearest (x / ulp p x) ≤ k := nearest_intCast k ▸ nearest_mono hk
  exact mul_le_mul_of_nonneg_right (by exact_mod_cast hnearest) (ulp_pos p x).le

theorem onGrid_zero (p : ℕ) (x : ℚ) : OnGrid p x 0 := ⟨0, by simp⟩

/-- A number between two on one grid is a bound for both. -/
theorem rounded_le_between (hx : OnGrid p x t) (hy : OnGrid p y t) (hxt : x ≤ t) (hty : t ≤ y) :
    rounded p x ≤ rounded p y := (hx.rounded_le hxt).trans (hy.le_rounded hty)

theorem rounded_same (hlog : Int.log 2 |x| = Int.log 2 |y|) (h : x ≤ y) : rounded p x ≤ rounded p y := by
  have hulp : ulp p x = ulp p y := by rw [ulp, ulp, hlog]
  rw [rounded, rounded, hulp]
  refine mul_le_mul_of_nonneg_right ?_ (ulp_pos p y).le
  exact_mod_cast nearest_mono (div_le_div_of_nonneg_right h (ulp_pos p y).le)

theorem rounded_mono (hp : 0 < p) (h : x ≤ y) : rounded p x ≤ rounded p y := by
  have hself : ∀ {z : ℚ} {e : ℤ}, Int.log 2 |z| ≤ e → Int.log 2 |z| - (p - 1) ≤ e := by
    intro z e hz
    omega
  rcases lt_or_ge 0 x with hpos | hneg
  · have hlog : Int.log 2 |x| ≤ Int.log 2 |y| :=
      Int.log_mono_right (abs_pos.2 hpos.ne') (abs_le_abs_of_nonneg hpos.le h)
    rcases hlog.eq_or_lt with heq | hlt
    · exact rounded_same heq h
    · -- the power of two at which the larger one begins
      have hy : (2 : ℚ) ^ Int.log 2 |y| ≤ y := by
        have hle := Int.zpow_log_le_self (b := 2) (by decide) (abs_pos.2 (hpos.trans_le h).ne')
        rwa [abs_of_pos (hpos.trans_le h)] at hle ⊢
      have hx : x ≤ (2 : ℚ) ^ Int.log 2 |y| := by
        have hlt' := (Int.lt_zpow_iff_log_lt (b := 2) (by decide) (abs_pos.2 hpos.ne')).2 hlt
        exact (le_abs_self x).trans (by exact_mod_cast hlt'.le)
      have hone := onGrid_zpow (p := p) (x := x) 1 (hself hlog)
      have hone' := onGrid_zpow (p := p) (x := y) 1 (hself le_rfl)
      rw [Int.cast_one, one_mul] at hone hone'
      exact rounded_le_between hone hone' hx hy
  · rcases lt_or_ge y 0 with hy0 | hy0
    · have hlog : Int.log 2 |y| ≤ Int.log 2 |x| :=
        Int.log_mono_right (abs_pos.2 hy0.ne) (abs_le_abs_of_nonpos hy0.le h)
      rcases hlog.eq_or_lt with heq | hlt
      · exact rounded_same heq.symm h
      · have hx : x ≤ -(2 : ℚ) ^ Int.log 2 |x| := by
          have hle := Int.zpow_log_le_self (b := 2) (by decide) (abs_pos.2 (h.trans_lt hy0).ne)
          rw [abs_of_neg (h.trans_lt hy0)] at hle ⊢
          push_cast at hle
          linarith
        have hy : -(2 : ℚ) ^ Int.log 2 |x| ≤ y := by
          have hlt' := (Int.lt_zpow_iff_log_lt (b := 2) (by decide) (abs_pos.2 hy0.ne)).2 hlt
          push_cast at hlt'
          linarith [neg_abs_le y]
        have hone := onGrid_zpow (p := p) (x := x) (-1) (hself le_rfl)
        have hone' := onGrid_zpow (p := p) (x := y) (-1) (hself hlog)
        rw [Int.cast_neg, Int.cast_one, neg_one_mul] at hone hone'
        exact rounded_le_between hone hone' hx hy
    · exact rounded_le_between (onGrid_zero p x) (onGrid_zero p y) hneg hy0

/-- An integer of at most `p` digits stays as it is. -/
theorem rounded_intCast {n : ℤ} (h : |n| < 2 ^ p) : rounded p n = n := by
  rcases eq_or_ne n 0 with rfl | hn
  · simp [rounded, nearest]
  have hlog : Int.log 2 |(n : ℚ)| < p := by
    rw [← Int.lt_zpow_iff_log_lt (by decide) (abs_pos.2 (Int.cast_ne_zero.2 hn)), zpow_natCast]
    exact_mod_cast h
  have hgrid := onGrid_zpow (p := p) (x := (n : ℚ)) (e := 0) n (by omega)
  rw [zpow_zero, mul_one] at hgrid
  exact le_antisymm (hgrid.rounded_le le_rfl) (hgrid.le_rounded le_rfl)

example : rounded 53 (2 ^ 53 + 1) = 2 ^ 53 ∧ rounded 53 (2 ^ 53 + 3) = 2 ^ 53 + 4 := by decide +kernel

end Lib
