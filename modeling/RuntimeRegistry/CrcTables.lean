import RuntimeRegistry.Checksums
import RuntimeRegistry.Lib.Runs
import RuntimeRegistry.Lib.Serial
/-!
# The table of `crc32`

`crc32` fills a static table at its first call and reads it at every call. Whatever
was called before, a call gives the checksum of the polynomial bit by bit, and a call
that is seeded with the result of another goes on where that one ended.
-/
open Lib

namespace RuntimeRegistry

/-! ## Bit by bit -/

/-- The reflected polynomial. -/
def crcPolynomial : BitVec 32 := 0xEDB88320#32

/-- CRC-32 without a table. -/
def crc32Serial (data : List UInt8) (seed : UInt32) : UInt32 :=
  UInt32.ofBitVec (Crc.serial crcPolynomial (seed ^^^ 0xFFFFFFFF).toBitVec (data.map UInt8.toBitVec)) ^^^ 0xFFFFFFFF

theorem toBitVec_crcRound (c : UInt32) : (crcRound c).toBitVec = Crc.shift crcPolynomial c.toBitVec := by
  unfold crcRound Crc.shift
  simp only [ne_eq, and_one_eq_zero]
  cases c.toBitVec.getLsbD 0 <;> rfl

/-- The table is that of the polynomial. -/
theorem crcEntry_eq : crcEntry = Crc.entries crcPolynomial := by
  funext i
  have hrounds : ∀ (n : ℕ) (c : UInt32), ((List.range n).foldl (fun c _ => crcRound c) c).toBitVec =
      (Crc.shift crcPolynomial)^[n] c.toBitVec := by
    intro n c
    induction n with
    | zero => rfl
    | succ n ih => rw [List.range_succ, List.foldl_append, Function.iterate_succ_apply', ← ih, ← toBitVec_crcRound]; rfl
  exact hrounds 8 _

theorem crc32_eq_serial (data : List UInt8) (seed : UInt32) : crc32 data seed = crc32Serial data seed := by
  rw [crc32, crc32Serial, ← Crc.run_entries (by decide), ← crcEntry_eq, ← toBitVec_foldl_crcByte]

theorem crc32_nil (seed : UInt32) : crc32 [] seed = seed := by
  rw [crc32, List.foldl_nil, UInt32.xor_assoc, UInt32.xor_self, UInt32.xor_zero]

/-- The last inversion of one call cancels the first one of the next. -/
theorem crc32_append (a b : List UInt8) (seed : UInt32) : crc32 b (crc32 a seed) = crc32 (a ++ b) seed := by
  simp only [crc32, List.foldl_append]
  rw [UInt32.xor_assoc _ 0xFFFFFFFF 0xFFFFFFFF, UInt32.xor_self, UInt32.xor_zero]

/-! ## The table -/

/-- The static variables of `crc32`. -/
structure CrcStatics where
  table : Vector UInt32 256 := .replicate 256 0
  built : Bool := false

namespace CrcStatics

/-- The two loops that fill the table. -/
def build (s : CrcStatics) : CrcStatics where
  table := (List.finRange 256).foldl
    (fun table i => table.set i.val ((List.range 8).foldl (fun c _ => crcRound c) (UInt32.ofNat i.val)) i.isLt) s.table
  built := true

/-- `(crc ^ ch) & 0xFFu` -/
def index (crc : UInt32) (ch : UInt8) : Fin 256 where
  val := ((crc ^^^ ch.toUInt32) &&& 0xFF).toNat
  isLt := by
    rw [UInt32.toNat_and]
    exact Nat.lt_of_le_of_lt Nat.and_le_right (by decide)

/-- A call of `crc32`, and the static variables after it. -/
def crc32 (s : CrcStatics) (data : List UInt8) (seed : UInt32 := 0) : UInt32 × CrcStatics :=
  let s := if !s.built then s.build else s
  (data.foldl (fun crc ch => s.table[index crc ch] ^^^ (crc >>> 8)) (seed ^^^ 0xFFFFFFFF) ^^^ 0xFFFFFFFF, s)

def crc32_combine (s : CrcStatics) (parts : List (List UInt8)) : UInt32 × CrcStatics :=
  parts.foldl (fun (crc, s) p => s.crc32 p crc) (0, s)

/-- A call, by its data and its seed. -/
def Step (s : CrcStatics) (call : List UInt8 × UInt32) (t : CrcStatics) : Prop := t = (s.crc32 call.1 call.2).2

/-- A table that is built is the right one. -/
def WellBuilt (s : CrcStatics) : Prop := s.built = true → ∀ i : Fin 256, s.table[i] = crcTable (UInt8.ofNat i.val)

variable {s : CrcStatics}

theorem getElem_foldl_set {α : Type} {n : ℕ} (f : Fin n → α) (is : List (Fin n)) (table : Vector α n) (i : Fin n) :
    (is.foldl (fun table j => table.set j.val (f j) j.isLt) table)[i] = if i ∈ is then f i else table[i] := by
  induction is generalizing table with
  | nil => simp
  | cons j is ih =>
    rw [List.foldl_cons, ih]
    by_cases hi : i ∈ is
    · simp [hi]
    · by_cases hj : i = j
      · subst hj
        simp
      · have hne : j.val ≠ i.val := fun h => hj (Fin.ext h.symm)
        simp [hi, hj, hne]

theorem build_wellBuilt (s : CrcStatics) : s.build.WellBuilt := by
  intro _ i
  have hbyte : UInt32.ofNat i.val = (UInt8.ofNat i.val).toUInt32 := by
    apply UInt32.toNat_inj.1
    simp [Nat.mod_eq_of_lt (i.isLt.trans (by decide : 256 < 4294967296))]
  rw [build, getElem_foldl_set, if_pos (List.mem_finRange i), hbyte, crcTable]

/-- The table that a call reads is built. -/
theorem crc32_snd (h : s.WellBuilt) (data : List UInt8) (seed : UInt32) :
    (s.crc32 data seed).2.WellBuilt ∧ (s.crc32 data seed).2.built = true := by
  unfold crc32
  dsimp only
  by_cases hb : s.built = true
  · simpa [hb] using h
  · simpa [hb] using ⟨s.build_wellBuilt, rfl⟩

theorem crc32_fst (h : s.WellBuilt) (data : List UInt8) (seed : UInt32) :
    (s.crc32 data seed).1 = RuntimeRegistry.crc32 data seed := by
  obtain ⟨hwell, hbuilt⟩ := crc32_snd h data seed
  have hlow : ∀ x : UInt32, UInt8.ofNat (x &&& 0xFF).toNat = x.toUInt8 := by
    intro x
    apply UInt8.toNat_inj.1
    simp [Nat.and_two_pow_sub_one_eq_mod _ 8]
  have hround : ∀ crc ch, (s.crc32 data seed).2.table[index crc ch] ^^^ (crc >>> 8) = crcByte crc ch := by
    intro crc ch
    rw [hwell hbuilt, index, hlow, crcByte]
  exact congrArg (· ^^^ 0xFFFFFFFF) (congrArg (fun f => data.foldl f _) (funext fun crc => funext (hround crc)))

theorem wellBuilt_reachable (h : Lib.Reachable Step {} s) : s.WellBuilt := by
  refine h.inv WellBuilt (fun hb => absurd hb (by decide)) fun s call t hwell hs => ?_
  rw [show t = _ from hs]
  exact (crc32_snd hwell call.1 call.2).1

theorem crc32_step (s : CrcStatics) (data : List UInt8) (seed : UInt32) : s.Step (data, seed) (s.crc32 data seed).2 := rfl

/-- Every part goes on where the one before it ended. -/
theorem crc32_combine_eq (h : s.WellBuilt) (parts : List (List UInt8)) :
    (s.crc32_combine parts).1 = RuntimeRegistry.crc32 parts.flatten := by
  have hparts : ∀ (seed : UInt32) (s : CrcStatics), s.WellBuilt →
      (parts.foldl (fun (crc, s) p => s.crc32 p crc) (seed, s)).1 = RuntimeRegistry.crc32 parts.flatten seed := by
    induction parts with
    | nil =>
      intro seed s _
      rw [List.foldl_nil, List.flatten_nil, crc32_nil]
    | cons p parts ih =>
      intro seed s hs
      have hnext := ih (s.crc32 p seed).1 (s.crc32 p seed).2 (crc32_snd hs p seed).1
      rw [crc32_fst hs, crc32_append] at hnext
      rw [List.foldl_cons, List.flatten_cons, ← hnext]
      rw [← crc32_fst hs]
  exact hparts 0 s h

/-- Whatever `crc32` was called with before, a call gives the checksum of the reflected
polynomial bit by bit, and calls that are seeded one with the other give the checksum
of all their data. -/
theorem crc32_bit_by_bit (h : Lib.Reachable Step {} s) :
    (∀ data seed, (s.crc32 data seed).1 = crc32Serial data seed) ∧
    (∀ a b, ((s.crc32 a).2.crc32 b (s.crc32 a).1).1 = (s.crc32 (a ++ b)).1) ∧
    ∀ parts, (s.crc32_combine parts).1 = (s.crc32 parts.flatten).1 := by
  have hwell := wellBuilt_reachable h
  refine ⟨fun data seed => ?_, fun a b => ?_, fun parts => ?_⟩
  · rw [crc32_fst hwell, crc32_eq_serial]
  · rw [crc32_fst (crc32_snd hwell a 0).1, crc32_fst hwell, crc32_fst hwell, crc32_append]
  · rw [crc32_combine_eq hwell, crc32_fst hwell]

/-- The static variables after one call, which has filled the table. -/
def Sample.filled : CrcStatics := (CrcStatics.crc32 {} [0x31, 0x32]).2

theorem crc32_bit_by_bit_sample : Sample.filled.built = true ∧
    (∀ data seed, (Sample.filled.crc32 data seed).1 = crc32Serial data seed) ∧
    (∀ a b, ((Sample.filled.crc32 a).2.crc32 b (Sample.filled.crc32 a).1).1 = (Sample.filled.crc32 (a ++ b)).1) ∧
    ∀ parts, (Sample.filled.crc32_combine parts).1 = (Sample.filled.crc32 parts.flatten).1 :=
  ⟨rfl, crc32_bit_by_bit ⟨[([0x31, 0x32], 0)], .single (crc32_step {} _ _)⟩⟩

example : crc32Serial (text "123456789") 0 = 0xCBF43926 := by decide +kernel

end CrcStatics

end RuntimeRegistry
