import Mathlib
/-!
# Numerals at the head of a text

The reader of a number skips blanks, takes one sign, and reads the decimal digits
that follow. What stands behind the digits is left alone.
-/

namespace Lib

/-- A sign and a magnitude, as they were written. -/
structure Numeral where
  negative : Bool
  magnitude : ℕ
deriving DecidableEq

namespace Numeral

/-- `isspace` in the C locale -/
def isBlank (c : UInt8) : Bool := c = 32 || (9 ≤ c && c ≤ 13)

def isDigit (c : UInt8) : Bool := 48 ≤ c && c ≤ 57

/-- The number that decimal digits write. -/
def value (ds : List UInt8) : ℕ := ds.foldl (fun n c => 10 * n + (c.toNat - 48)) 0

/-- The numeral at the head of a text, behind blanks and a sign. -/
def read (s : List UInt8) : Option Numeral :=
  let s := s.dropWhile isBlank
  let digits := (if s.head? = some 45 ∨ s.head? = some 43 then s.tail else s).takeWhile isDigit
  if digits = [] then none else some ⟨s.head? = some 45, value digits⟩

/-- The decimal digits of a number. -/
def write (n : ℕ) : List UInt8 := (Nat.toDigits 10 n).map fun c => UInt8.ofNat c.toNat

theorem write_ne_nil (n : ℕ) : write n ≠ [] := by
  rw [write, ne_eq, List.map_eq_nil_iff]
  exact Nat.toDigits_ne_nil

/-- A number below the power has at most so many digits. -/
theorem length_write {n k : ℕ} (hk : 0 < k) (h : n < 10 ^ k) : (write n).length ≤ k := by
  rw [write, List.length_map]
  exact (Nat.length_toDigits_le_iff (by decide) hk).2 h

theorem isDigit_iff (c : UInt8) : isDigit c ↔ 48 ≤ c.toNat ∧ c.toNat ≤ 57 := by
  rw [isDigit, Bool.and_eq_true, decide_eq_true_eq, decide_eq_true_eq, UInt8.le_iff_toNat_le, UInt8.le_iff_toNat_le]
  exact Iff.rfl

theorem toDigits_range {n : ℕ} {d : Char} (h : d ∈ Nat.toDigits 10 n) : 48 ≤ d.toNat ∧ d.toNat ≤ 57 := by
  have hdigit : d.isDigit = true := Nat.isDigit_of_mem_toDigits (by decide) (by decide) h
  rw [Char.isDigit_iff_toNat] at hdigit
  exact hdigit

/-- What is written is made of digits. -/
theorem isDigit_write (n : ℕ) : ∀ c ∈ write n, isDigit c := by
  intro c hc
  obtain ⟨d, hd, rfl⟩ := List.mem_map.1 hc
  have hrange := toDigits_range hd
  have hval : (UInt8.ofNat d.toNat).toNat = d.toNat := by
    rw [UInt8.toNat_ofNat']
    omega
  rw [isDigit_iff, hval]
  exact hrange

theorem value_write (n : ℕ) : value (write n) = n := by
  have h : ∀ (ds : List Char) (m : ℕ), (∀ d ∈ ds, d.toNat < 256) →
      (ds.map fun c => UInt8.ofNat c.toNat).foldl (fun n c => 10 * n + (c.toNat - 48)) m = Nat.ofDigitChars 10 ds m := by
    intro ds
    induction ds with
    | nil => intro m _; rw [Nat.ofDigitChars_nil]; rfl
    | cons d ds ih =>
      intro m hds
      rw [List.forall_mem_cons] at hds
      have hval : (UInt8.ofNat d.toNat).toNat = d.toNat := by
        rw [UInt8.toNat_ofNat', Nat.mod_eq_of_lt hds.1]
      rw [List.map_cons, List.foldl_cons, ih _ hds.2, Nat.ofDigitChars_cons, hval]
      rfl
  rw [value, write, h _ 0, Nat.ofDigitChars_toDigits (by decide) (by decide)]
  intro d hd
  have hrange := toDigits_range hd
  omega

/-- What is written is read back. -/
theorem read_write (n : ℕ) : read (write n) = some ⟨false, n⟩ := by
  rcases hw : write n with _ | ⟨c, cs⟩
  · exact absurd hw (write_ne_nil n)
  have hc : isDigit c := isDigit_write n c (by simp [hw])
  have hrange := (isDigit_iff c).1 hc
  have hblank : isBlank c = false := by
    have h32 : c ≠ 32 := by rintro rfl; exact absurd hrange (by decide)
    have h13 : ¬ c ≤ 13 := by
      rw [UInt8.le_iff_toNat_le]
      have : (13 : UInt8).toNat = 13 := rfl
      omega
    simp [isBlank, h32, h13]
  have hminus : c ≠ 45 := by rintro rfl; exact absurd hrange (by decide)
  have hplus : c ≠ 43 := by rintro rfl; exact absurd hrange (by decide)
  have hall : (c :: cs).takeWhile isDigit = c :: cs := List.takeWhile_eq_self_iff.2 (hw ▸ isDigit_write n)
  have hdrop : (c :: cs).dropWhile isBlank = c :: cs := by simp [hblank]
  have hv : value (c :: cs) = n := hw ▸ value_write n
  simp [read, hdrop, hminus, hplus, hall, hv]

end Numeral

end Lib
