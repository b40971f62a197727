import RuntimeRegistry.Lib.Crc
/-!
# Checksums bit by bit

The checksum that a table speeds up: the state moves down by one bit for each bit of
the message, the lowest bit of a byte first, and the polynomial enters where the bit
that leaves the state differs from the one that comes. A table of eight moves of
every byte does the same a byte at a time, since a move is linear and moves that
no bit leaves by are shifts.
-/

namespace Lib

namespace Crc

variable {w : ℕ}

/-- The state moves down by a bit, and the polynomial enters for a bit that leaves. -/
def shift (P c : BitVec w) : BitVec w := if c.getLsbD 0 then P ^^^ (c >>> 1) else c >>> 1

/-- The state meets a bit of the message. -/
def serialBit (P c : BitVec w) (b : Bool) : BitVec w := if c.getLsbD 0 ^^ b then P ^^^ (c >>> 1) else c >>> 1

/-- The bits of a byte, the lowest first. -/
def bits (a : BitVec 8) : List Bool := (List.range 8).map a.getLsbD

/-- The state meets the bits of a message. -/
def serial (P c : BitVec w) (xs : List (BitVec 8)) : BitVec w := (xs.flatMap bits).foldl (serialBit P) c

/-- The entries of the table of a polynomial. -/
def entries (P : BitVec w) (i : BitVec 8) : BitVec w := (shift P)^[8] (i.setWidth w)

variable {P c d : BitVec w}

/-! ## Moves -/

theorem shift_xor (P c d : BitVec w) : shift P (c ^^^ d) = shift P c ^^^ shift P d := by
  have hcancel : ∀ x y : BitVec w, P ^^^ x ^^^ (P ^^^ y) = x ^^^ y := by
    intro x y
    rw [BitVec.xor_comm P x, BitVec.xor_assoc, ← BitVec.xor_assoc P P y, BitVec.xor_self, BitVec.zero_xor]
  simp only [shift, BitVec.getLsbD_xor, BitVec.ushiftRight_xor_distrib]
  -- the polynomial enters for one bit that leaves, and cancels for two
  cases c.getLsbD 0 <;> cases d.getLsbD 0 <;> simp [hcancel]
  · ac_rfl
  · ac_rfl

theorem iterate_shift_xor (P : BitVec w) (n : ℕ) (c d : BitVec w) :
    (shift P)^[n] (c ^^^ d) = (shift P)^[n] c ^^^ (shift P)^[n] d := by
  induction n generalizing c d with
  | zero => rfl
  | succ n ih => rw [Function.iterate_succ_apply, shift_xor, ih, Function.iterate_succ_apply, Function.iterate_succ_apply]

/-- Moves that no bit leaves by are shifts. -/
theorem iterate_shift_clear {n : ℕ} (h : ∀ i < n, c.getLsbD i = false) : (shift P)^[n] c = c >>> n := by
  induction n with
  | zero => simp
  | succ n ih =>
    have hbit : (c >>> n).getLsbD 0 = false := by simpa using h n (Nat.lt_succ_self n)
    rw [Function.iterate_succ_apply', ih fun i hi => h i (Nat.lt_succ_of_lt hi), shift, hbit, if_neg (by simp),
      BitVec.shiftRight_add]

/-- A bit of the message may enter before the move. -/
theorem serialBit_eq (P c x : BitVec w) : serialBit P c (x.getLsbD 0) ^^^ (x >>> 1) = shift P (c ^^^ x) := by
  simp only [serialBit, shift, BitVec.getLsbD_xor, BitVec.ushiftRight_xor_distrib]
  split_ifs
  · rw [BitVec.xor_assoc]
  · rfl

/-- So may all of them, before as many moves. -/
theorem serial_bits {n : ℕ} {x : BitVec w} (h : x >>> n = 0) (c : BitVec w) :
    ((List.range n).map x.getLsbD).foldl (serialBit P) c = (shift P)^[n] (c ^^^ x) := by
  induction n generalizing c x with
  | zero =>
    have hzero : x = 0 := by simpa using h
    simp [hzero]
  | succ n ih =>
    have hrest : (List.range n).map (fun i => x.getLsbD (i + 1)) = (List.range n).map (x >>> 1).getLsbD := by
      simp [BitVec.getLsbD_ushiftRight, Nat.add_comm]
    have hhigh : x >>> 1 >>> n = 0 := by rwa [← BitVec.shiftRight_add, Nat.add_comm]
    rw [List.range_succ_eq_map, List.map_cons, List.map_map, List.foldl_cons]
    change ((List.range n).map fun i => x.getLsbD (i + 1)).foldl _ _ = _
    rw [hrest, ih hhigh, serialBit_eq, Function.iterate_succ_apply]

/-! ## A byte at a time -/

theorem setWidth_shift (a : BitVec 8) : a.setWidth w >>> 8 = 0#w := by
  apply BitVec.eq_of_getLsbD_eq
  intro i _
  simp

/-- Eight moves take the lowest byte to its entry and the rest down by a byte. -/
theorem iterate_shift_byte (P c : BitVec w) : (shift P)^[8] c = entries P (c.setWidth 8) ^^^ (c >>> 8) := by
  have hsplit : c = (c.setWidth 8).setWidth w ^^^ (c >>> 8) <<< 8 := by
    apply BitVec.eq_of_getLsbD_eq
    intro i hi
    by_cases h : i < 8
    · simp [hi, h]
    · have hadd : 8 + (i - 8) = i := by omega
      simp [hi, h, hadd]
  have hclear : ∀ i < 8, ((c >>> 8) <<< 8).getLsbD i = false := by
    intro i hi
    simp [hi]
  have hhigh : (c >>> 8) <<< 8 >>> 8 = c >>> 8 := by
    apply BitVec.eq_of_getLsbD_eq
    intro i hi
    by_cases h : 8 + i < w
    · simp [h]
    · simp [h, BitVec.getLsbD_of_ge c (8 + i) (by omega)]
  conv_lhs => rw [hsplit]
  rw [iterate_shift_xor, iterate_shift_clear hclear, hhigh, entries]

/-- The table does what the bits of the byte do. -/
theorem step_entries (hw : 8 ≤ w) (P c : BitVec w) (a : BitVec 8) : step (entries P) c a = (bits a).foldl (serialBit P) c := by
  have hbits : bits a = (List.range 8).map (a.setWidth w).getLsbD := by
    refine List.map_congr_left fun i hi => ?_
    have hlt := List.mem_range.1 hi
    simp [show i < w by omega]
  have hindex : (c ^^^ a.setWidth w).setWidth 8 = c.setWidth 8 ^^^ a := by
    apply BitVec.eq_of_getLsbD_eq
    intro i hi
    simp [hi, show i < w by omega]
  rw [hbits, serial_bits (setWidth_shift a), iterate_shift_byte, hindex, BitVec.ushiftRight_xor_distrib,
    setWidth_shift, BitVec.xor_zero, step]

/-- A run over the table is the checksum bit by bit. -/
theorem run_entries (hw : 8 ≤ w) (P c : BitVec w) (xs : List (BitVec 8)) : xs.foldl (step (entries P)) c = serial P c xs := by
  induction xs generalizing c with
  | nil => rfl
  | cons x xs ih => rw [List.foldl_cons, ih, step_entries hw, serial, serial, List.flatMap_cons, List.foldl_append]

end Crc

end Lib
