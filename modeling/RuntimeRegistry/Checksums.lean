import RuntimeRegistry.Lib.Crc
import RuntimeRegistry.Identity
/-!
# Checksums

CRC-32 over a table, and SHA-256, as a persisted image and a frame are sealed with
them. Of SHA-256 only the width matters; CRC-32 tells short runs of bytes apart.
-/

namespace RuntimeRegistry

/-! ## CRC-32 -/

/-- One round of the reflected polynomial. -/
def crcRound (c : UInt32) : UInt32 := if c &&& 1 ≠ 0 then (0xEDB88320 : UInt32) ^^^ (c >>> 1) else c >>> 1

/-- An entry of the lookup table. -/
def crcTable (i : UInt8) : UInt32 := (List.range 8).foldl (fun c _ => crcRound c) i.toUInt32

/-- One byte of the loop of `crc32`. -/
def crcByte (crc : UInt32) (ch : UInt8) : UInt32 := crcTable (crc ^^^ ch.toUInt32).toUInt8 ^^^ (crc >>> 8)

def crc32 (data : List UInt8) (seed : UInt32 := 0) : UInt32 :=
  data.foldl crcByte (seed ^^^ 0xFFFFFFFF) ^^^ 0xFFFFFFFF

theorem and_one_eq_zero (c : UInt32) : c &&& 1 = 0 ↔ c.toBitVec.getLsbD 0 = false := by
  have h : (c &&& 1).toBitVec = (BitVec.ofBool (c.toBitVec.getLsbD 0)).setWidth 32 := by
    rw [UInt32.toBitVec_and]
    exact BitVec.and_one_eq_setWidth_ofBool_getLsbD
  rw [← UInt32.toBitVec_inj, h]
  cases c.toBitVec.getLsbD 0 <;> decide

theorem crcRound_xor (a b : UInt32) : crcRound (a ^^^ b) = crcRound a ^^^ crcRound b := by
  have hshift : (a ^^^ b) >>> 1 = a >>> 1 ^^^ b >>> 1 := by
    apply UInt32.toBitVec_inj.1
    simp [BitVec.ushiftRight_xor_distrib]
  have hcancel : ∀ p x y : UInt32, p ^^^ x ^^^ (p ^^^ y) = x ^^^ y := by
    intro p x y
    rw [UInt32.xor_comm p x, UInt32.xor_assoc, ← UInt32.xor_assoc p p y, UInt32.xor_self, UInt32.zero_xor]
  unfold crcRound
  simp only [ne_eq, and_one_eq_zero, UInt32.toBitVec_xor, BitVec.getLsbD_xor, hshift]
  -- the polynomial enters for an odd argument, and cancels for two
  cases a.toBitVec.getLsbD 0 <;> cases b.toBitVec.getLsbD 0 <;> simp [hcancel]
  · ac_rfl
  · ac_rfl

/-- The table is linear. -/
theorem crcTable_xor (i j : UInt8) : crcTable (i ^^^ j) = crcTable i ^^^ crcTable j := by
  have hfold : ∀ (ns : List ℕ) (a b : UInt32), ns.foldl (fun c _ => crcRound c) (a ^^^ b) =
      ns.foldl (fun c _ => crcRound c) a ^^^ ns.foldl (fun c _ => crcRound c) b := by
    intro ns
    induction ns with
    | nil => exact fun _ _ => rfl
    | cons n ns ih =>
      intro a b
      rw [List.foldl_cons, crcRound_xor, ih]
      rfl
  rw [crcTable, UInt8.toUInt32_xor, hfold]
  rfl

/-- The table, by its bits. -/
def crcEntry (i : BitVec 8) : BitVec 32 := (crcTable ⟨i⟩).toBitVec

theorem crcEntry_top {i : BitVec 8} (h : crcEntry i >>> (32 - 8) = 0) : i = 0 := by
  have hall : ∀ n : Fin 256, crcEntry (BitVec.ofFin n) >>> (32 - 8) = 0 → BitVec.ofFin n = 0#8 := by decide +kernel
  exact hall i.toFin h

/-- No two entries of the table have the same top byte: their sum would be an entry
without one. -/
theorem crcEntry_distinct : Lib.Crc.Distinct crcEntry := by
  intro i j h
  have hsum : crcEntry (i ^^^ j) = crcEntry i ^^^ crcEntry j := congrArg UInt32.toBitVec (crcTable_xor ⟨i⟩ ⟨j⟩)
  have htop : crcEntry (i ^^^ j) >>> (32 - 8) = 0 := by
    rw [hsum, BitVec.ushiftRight_xor_distrib, h, BitVec.xor_self]
    rfl
  exact BitVec.xor_eq_zero_iff.1 (crcEntry_top htop)

theorem toBitVec_crcByte (crc : UInt32) (ch : UInt8) :
    (crcByte crc ch).toBitVec = Lib.Crc.step crcEntry crc.toBitVec ch.toBitVec := by
  have hindex : (crc ^^^ ch.toUInt32).toUInt8 = ⟨crc.toBitVec.setWidth 8 ^^^ ch.toBitVec⟩ := by
    apply UInt8.toBitVec_inj.1
    simp
  rw [crcByte, hindex]
  rfl

theorem toBitVec_foldl_crcByte (data : List UInt8) (crc : UInt32) :
    (data.foldl crcByte crc).toBitVec = (data.map UInt8.toBitVec).foldl (Lib.Crc.step crcEntry) crc.toBitVec := by
  induction data generalizing crc with
  | nil => rfl
  | cons ch data ih => rw [List.foldl_cons, ih, toBitVec_crcByte, List.map_cons, List.foldl_cons]

/-- Two texts that differ in a run of at most four bytes have different checksums. -/
theorem crc32_burst {pre xs ys post : List UInt8} (hlen : xs.length = ys.length) (hshort : xs.length ≤ 4)
    (h : crc32 (pre ++ xs ++ post) = crc32 (pre ++ ys ++ post)) : xs = ys := by
  have hfold := congrArg UInt32.toBitVec ((UInt32.xor_left_inj _).1 h)
  rw [toBitVec_foldl_crcByte, toBitVec_foldl_crcByte] at hfold
  simp only [List.map_append] at hfold
  have hmap := Lib.Crc.burst crcEntry_distinct (by omega) (by simpa using hlen) (by rw [List.length_map]; omega) hfold
  exact List.map_injective_iff.2 (fun _ _ => UInt8.toBitVec_inj.1) hmap

/-! ## SHA-256 -/

def sha256K : List UInt32 := [
  0x428a2f98, 0x71374491, 0xb5c0fbcf, 0xe9b5dba5, 0x3956c25b, 0x59f111f1,
  0x923f82a4, 0xab1c5ed5, 0xd807aa98, 0x12835b01, 0x243185be, 0x550c7dc3,
  0x72be5d74, 0x80deb1fe, 0x9bdc06a7, 0xc19bf174, 0xe49b69c1, 0xefbe4786,
  0x0fc19dc6, 0x240ca1cc, 0x2de92c6f, 0x4a7484aa, 0x5cb0a9dc, 0x76f988da,
  0x983e5152, 0xa831c66d, 0xb00327c8, 0xbf597fc7, 0xc6e00bf3, 0xd5a79147,
  0x06ca6351, 0x14292967, 0x27b70a85, 0x2e1b2138, 0x4d2c6dfc, 0x53380d13,
  0x650a7354, 0x766a0abb, 0x81c2c92e, 0x92722c85, 0xa2bfe8a1, 0xa81a664b,
  0xc24b8b70, 0xc76c51a3, 0xd192e819, 0xd6990624, 0xf40e3585, 0x106aa070,
  0x19a4c116, 0x1e376c08, 0x2748774c, 0x34b0bcb5, 0x391c0cb3, 0x4ed8aa4a,
  0x5b9cca4f, 0x682e6ff3, 0x748f82ee, 0x78a5636f, 0x84c87814, 0x8cc70208,
  0x90befffa, 0xa4506ceb, 0xbef9a3f7, 0xc67178f2]

def rotr (x : UInt32) (n : UInt32) : UInt32 := (x >>> n) ||| (x <<< (32 - n))

/-- The chaining value, and the working variables of a block. -/
structure Sha256Words where
  a : UInt32
  b : UInt32
  c : UInt32
  d : UInt32
  e : UInt32
  f : UInt32
  g : UInt32
  h : UInt32

/-- The bytes of a word, the highest first. -/
def bigEndian32 (x : UInt32) : List UInt8 :=
  [(x >>> 24).toUInt8, (x >>> 16).toUInt8, (x >>> 8).toUInt8, x.toUInt8]

/-- The message, a one bit, zeros up to 56 modulo 64, and the length in bits. -/
def sha256Pad (data : List UInt8) : List UInt8 :=
  let bits : UInt64 := UInt64.ofNat data.length * 8
  data ++ [(0x80 : UInt8)] ++ List.replicate ((119 - data.length % 64) % 64) (0 : UInt8) ++
    bigEndian32 (bits >>> 32).toUInt32 ++ bigEndian32 bits.toUInt32

/-- The first 16 words of the schedule of a block. -/
def sha256Words (block : List UInt8) : List UInt32 :=
  (List.range 16).map fun i =>
    ((block.getD (4 * i) 0).toUInt32 <<< 24) ||| ((block.getD (4 * i + 1) 0).toUInt32 <<< 16) |||
      ((block.getD (4 * i + 2) 0).toUInt32 <<< 8) ||| (block.getD (4 * i + 3) 0).toUInt32

/-- The next word of the schedule. -/
def sha256Next (w : List UInt32) (i : Nat) : UInt32 :=
  let w15 := w.getD (i - 15) 0
  let w2 := w.getD (i - 2) 0
  let s0 := rotr w15 7 ^^^ rotr w15 18 ^^^ (w15 >>> 3)
  let s1 := rotr w2 17 ^^^ rotr w2 19 ^^^ (w2 >>> 10)
  w.getD (i - 16) 0 + s0 + w.getD (i - 7) 0 + s1

def sha256Schedule (block : List UInt8) : List UInt32 :=
  (List.range 48).foldl (fun w i => w ++ [sha256Next w (i + 16)]) (sha256Words block)

def sha256Round (v : Sha256Words) (kw : UInt32 × UInt32) : Sha256Words :=
  let S1 := rotr v.e 6 ^^^ rotr v.e 11 ^^^ rotr v.e 25
  let ch := (v.e &&& v.f) ^^^ (~~~v.e &&& v.g)
  let temp1 := v.h + S1 + ch + kw.1 + kw.2
  let S0 := rotr v.a 2 ^^^ rotr v.a 13 ^^^ rotr v.a 22
  let maj := (v.a &&& v.b) ^^^ (v.a &&& v.c) ^^^ (v.b &&& v.c)
  let temp2 := S0 + maj
  { a := temp1 + temp2, b := v.a, c := v.b, d := v.c, e := v.d + temp1, f := v.e, g := v.f, h := v.g }

def sha256Block (h : Sha256Words) (block : List UInt8) : Sha256Words :=
  let v := (sha256K.zip (sha256Schedule block)).foldl sha256Round h
  { a := h.a + v.a, b := h.b + v.b, c := h.c + v.c, d := h.d + v.d
    e := h.e + v.e, f := h.f + v.f, g := h.g + v.g, h := h.h + v.h }

def sha256Init : Sha256Words :=
  { a := 0x6a09e667, b := 0xbb67ae85, c := 0x3c6ef372, d := 0xa54ff53a
    e := 0x510e527f, f := 0x9b05688c, g := 0x1f83d9ab, h := 0x5be0cd19 }

def Sha256Words.bytes (s : Sha256Words) : List UInt8 :=
  bigEndian32 s.a ++ bigEndian32 s.b ++ bigEndian32 s.c ++ bigEndian32 s.d ++
    bigEndian32 s.e ++ bigEndian32 s.f ++ bigEndian32 s.g ++ bigEndian32 s.h

def sha256 (data : List UInt8) : List UInt8 :=
  let msg := sha256Pad data
  ((List.range (msg.length / 64)).foldl (fun h i => sha256Block h ((msg.drop (64 * i)).take 64)) sha256Init).bytes

@[simp] theorem sha256_length (data : List UInt8) : (sha256 data).length = 32 := rfl

end RuntimeRegistry
