import RuntimeRegistry.Lib.Compression
import RuntimeRegistry.Corruption
import RuntimeRegistry.Images
/-!
# What a digest identifies

`sha256` pads a message so that no padded message is the end of another one, and folds
`sha256Block` over its blocks. Equal digests are therefore equal messages, or the two
walks over the blocks end in a collision of `sha256Block`, which is read off them. The
digest of a registry, and the one in the trailer of an image, stand for the persisted
state up to such a collision.
-/
open Lib Lib.Reader

namespace RuntimeRegistry

deriving instance DecidableEq for Sha256Words

/-! ## Hexadecimal text -/

def hexDigit (n : UInt8) : UInt8 := (text "0123456789abcdef").getD n.toNat 0

def sha256_hex_of (digest : List UInt8) : Text :=
  digest.flatMap fun b : UInt8 => [hexDigit ((b >>> 4) &&& 0xF), hexDigit (b &&& 0xF)]

def sha256_hex (data : List UInt8) : Text := sha256_hex_of (sha256 data)

/-- The digit tells the four bits it stands for. -/
theorem hexDigit_inj {m n : UInt8} (hm : m < 16) (hn : n < 16) (h : hexDigit m = hexDigit n) : m = n := by
  have hall : ∀ i < 16, ∀ j < 16, hexDigit (UInt8.ofNat i) = hexDigit (UInt8.ofNat j) → i = j := by decide
  have heq := hall m.toNat (UInt8.lt_iff_toNat_lt.1 hm) n.toNat (UInt8.lt_iff_toNat_lt.1 hn) (by simpa using h)
  exact UInt8.toNat_inj.1 heq

/-- A byte is its two digits. -/
theorem nibbles (b : UInt8) : ((b >>> 4) &&& 0xF) <<< 4 ||| (b &&& 0xF) = b := by
  have hall : ∀ n < 256, ((UInt8.ofNat n >>> 4) &&& 0xF) <<< 4 ||| (UInt8.ofNat n &&& 0xF) = UInt8.ofNat n := by
    decide +kernel
  simpa using hall b.toNat b.toNat_lt

theorem sha256_hex_of_inj {d e : List UInt8} (h : sha256_hex_of d = sha256_hex_of e) : d = e := by
  induction d generalizing e with
  | nil =>
    cases e with
    | nil => rfl
    | cons c e => simp [sha256_hex_of] at h
  | cons b d ih =>
    cases e with
    | nil => simp [sha256_hex_of] at h
    | cons c e =>
      simp only [sha256_hex_of, List.flatMap_cons, List.cons_append, List.nil_append, List.cons.injEq] at h
      obtain ⟨hhi, hlo, hrest⟩ := h
      have hsmall : ∀ x : UInt8, x &&& 0xF < 16 := fun x => by
        rw [UInt8.lt_iff_toNat_lt, UInt8.toNat_and]
        exact Nat.lt_of_le_of_lt Nat.and_le_right (by decide)
      rw [← nibbles b, hexDigit_inj (hsmall _) (hsmall _) hhi, hexDigit_inj (hsmall _) (hsmall _) hlo, nibbles, ih hrest]

/-! ## Padding -/

theorem bigEndian32_eq (x : UInt32) : bigEndian32 x = (put_u32 x).reverse := rfl

theorem bigEndian32_inj {x y : UInt32} (h : bigEndian32 x = bigEndian32 y) : x = y := by
  rw [bigEndian32_eq, bigEndian32_eq, List.reverse_inj] at h
  have hbytes : put_u32 x ++ [] = put_u32 y ++ [] := by rw [h]
  exact ((reads_u32 x).unique (reads_u32 y) hbytes).1

theorem Sha256Words.bytes_inj {s t : Sha256Words} (h : s.bytes = t.bytes) : s = t := by
  obtain ⟨h, hh⟩ := List.append_inj' h rfl
  obtain ⟨h, hg⟩ := List.append_inj' h rfl
  obtain ⟨h, hf⟩ := List.append_inj' h rfl
  obtain ⟨h, he⟩ := List.append_inj' h rfl
  obtain ⟨h, hd⟩ := List.append_inj' h rfl
  obtain ⟨h, hc⟩ := List.append_inj' h rfl
  obtain ⟨ha, hb⟩ := List.append_inj' h rfl
  cases s
  cases t
  simp only [Sha256Words.mk.injEq]
  exact ⟨bigEndian32_inj ha, bigEndian32_inj hb, bigEndian32_inj hc, bigEndian32_inj hd, bigEndian32_inj he,
    bigEndian32_inj hf, bigEndian32_inj hg, bigEndian32_inj hh⟩

/-- The number of bits that the padding holds. -/
def sha256Bits (data : List UInt8) : UInt64 := UInt64.ofNat data.length * 8

theorem sha256Pad_eq (data : List UInt8) : sha256Pad data =
    data ++ ([(0x80 : UInt8)] ++ (List.replicate ((119 - data.length % 64) % 64) 0 ++ (put_u64 (sha256Bits data)).reverse)) := by
  simp only [sha256Pad, put_u64, List.reverse_append, ← bigEndian32_eq, List.append_assoc, sha256Bits]

theorem sha256Pad_length (data : List UInt8) : (sha256Pad data).length = 64 * ((data.length + 72) / 64) := by
  simp only [sha256Pad_eq, List.length_append, List.length_replicate, List.length_reverse, put_u64, put_u32,
    List.length_cons, List.length_nil]
  omega

theorem sha256Bits_inj {x y : List UInt8} (hx : x.length < 2 ^ 61) (hy : y.length < 2 ^ 61)
    (h : sha256Bits x = sha256Bits y) : x.length = y.length := by
  have heq := congrArg UInt64.toNat h
  simp only [sha256Bits, UInt64.toNat_mul, UInt64.toNat_ofNat', show UInt64.toNat 8 = 8 from rfl] at heq
  omega

/-- The length at the end of a padded message tells how much of it is padding. -/
theorem sha256Pad_suffix {x y : List UInt8} (hx : x.length < 2 ^ 61) (hy : y.length < 2 ^ 61)
    (h : sha256Pad x <:+ sha256Pad y) : x = y := by
  have hbits : sha256Bits x = sha256Bits y := by
    obtain ⟨as, has⟩ := List.reverse_prefix.2 h
    simp only [sha256Pad_eq, List.reverse_append, List.reverse_reverse, List.append_assoc] at has
    exact ((reads_u64 _).unique (reads_u64 _) has).1
  have hlen := sha256Bits_inj hx hy hbits
  have heq : sha256Pad x = sha256Pad y := h.eq_of_length (by rw [sha256Pad_length, sha256Pad_length, hlen])
  rw [sha256Pad_eq, sha256Pad_eq] at heq
  exact (List.append_inj heq hlen).1

/-! ## Blocks -/

/-- The blocks of 64 bytes. -/
def sha256Blocks (msg : List UInt8) : List (List UInt8) :=
  (List.range (msg.length / 64)).map fun i => (msg.drop (64 * i)).take 64

theorem sha256_eq (data : List UInt8) :
    sha256 data = ((sha256Blocks (sha256Pad data)).foldl sha256Block sha256Init).bytes := by
  rw [sha256, sha256Blocks, List.foldl_map]

theorem flatten_blocks (msg : List UInt8) (n : ℕ) :
    ((List.range n).map fun i => (msg.drop (64 * i)).take 64).flatten = msg.take (64 * n) := by
  induction n with
  | zero => simp
  | succ n ih =>
    rw [List.range_succ, List.map_append, List.flatten_append, ih, List.map_singleton, List.flatten_singleton,
      Nat.mul_succ, List.take_add]

theorem flatten_sha256Blocks (data : List UInt8) : (sha256Blocks (sha256Pad data)).flatten = sha256Pad data := by
  rw [sha256Blocks, flatten_blocks, List.take_of_length_le]
  rw [sha256Pad_length]
  omega

theorem sha256Blocks_length {data block : List UInt8} (h : block ∈ sha256Blocks (sha256Pad data)) : block.length = 64 := by
  obtain ⟨i, hi, rfl⟩ := List.mem_map.1 h
  have hlt := List.mem_range.1 hi
  rw [List.length_take, List.length_drop]
  omega

theorem sha256Blocks_suffix {x y : List UInt8} (hx : x.length < 2 ^ 61) (hy : y.length < 2 ^ 61)
    (h : sha256Blocks (sha256Pad x) <:+ sha256Blocks (sha256Pad y)) : x = y := by
  obtain ⟨as, has⟩ := h
  refine sha256Pad_suffix hx hy ⟨as.flatten, ?_⟩
  rw [← flatten_sha256Blocks x, ← flatten_sha256Blocks y, ← has, List.flatten_append]

/-! ## Collisions -/

/-- Where the walks over the two padded messages differ for the last time. -/
def sha256Collision (x y : List UInt8) : Option ((Sha256Words × List UInt8) × (Sha256Words × List UInt8)) :=
  Compression.lastDifference sha256Block sha256Init (sha256Blocks (sha256Pad x)) (sha256Blocks (sha256Pad y))

/-- The last difference of the walks over the two messages is a collision of `sha256Block`. -/
def Sha256Collides (x y : List UInt8) : Prop :=
  ∃ p q, sha256Collision x y = some (p, q) ∧ Compression.Collides sha256Block p q ∧ p.2.length = 64 ∧ q.2.length = 64

/-- Two messages have one digest if they are one message, or if their walks collide, and
only then. -/
theorem sha256_eq_iff {x y : List UInt8} (hx : x.length < 2 ^ 61) (hy : y.length < 2 ^ 61) :
    sha256 x = sha256 y ↔ x = y ∨ Sha256Collides x y := by
  have hfree : sha256Blocks (sha256Pad x) <:+ sha256Blocks (sha256Pad y) ∨
      sha256Blocks (sha256Pad y) <:+ sha256Blocks (sha256Pad x) →
      sha256Blocks (sha256Pad x) = sha256Blocks (sha256Pad y) := by
    rintro (h | h)
    · rw [sha256Blocks_suffix hx hy h]
    · rw [sha256Blocks_suffix hy hx h]
  have hblocks : sha256Blocks (sha256Pad x) = sha256Blocks (sha256Pad y) ↔ x = y :=
    ⟨fun h => sha256Blocks_suffix hx hy (by rw [h]), fun h => by rw [h]⟩
  rw [sha256_eq, sha256_eq, (Function.Injective.eq_iff fun _ _ => Sha256Words.bytes_inj), Compression.foldl_eq_iff hfree, hblocks]
  refine or_congr_right (exists₂_congr fun p q => and_congr_right fun hd => ?_)
  obtain ⟨hp, hq⟩ := Compression.mem_of_lastDifference hd
  exact (and_iff_left ⟨sha256Blocks_length hp, sha256Blocks_length hq⟩).symm

example : sha256_hex (text "abc") = text "ba7816bf8f01cfea414140de5dae2223b00361a396177a9cb410ff61f20015ad" := by
  decide +kernel

namespace Registry

variable {r s : Registry} {data : List UInt8}

/-! ## The digest of a registry -/

def semantic_digest (r : Registry) : Text := sha256_hex r.serialize

/-- Two registries have one digest if they have the same counters and records, or if their
images collide, and only then. -/
theorem semantic_digest_eq_iff (hr : r.Bounded) (hs : s.Bounded) (hlr : r.serialize.length < 2 ^ 61)
    (hls : s.serialize.length < 2 ^ 61) :
    r.semantic_digest = s.semantic_digest ↔ SamePersisted r s ∨ Sha256Collides r.serialize s.serialize := by
  have hhex : r.semantic_digest = s.semantic_digest ↔ sha256 r.serialize = sha256 s.serialize :=
    ⟨sha256_hex_of_inj, congrArg sha256_hex_of⟩
  rw [hhex, sha256_eq_iff hlr hls, hr.serialize_iff hs]

theorem serialize_length (r : Registry) : r.serialize.length = r.put_content.length + 36 := by
  simp [serialize, withTrailer, put_u32]

theorem semantic_digest_eq_iff_sample : Sample.registry.semantic_digest = fresh.semantic_digest ↔
    SamePersisted Sample.registry fresh ∨ Sha256Collides Sample.registry.serialize fresh.serialize :=
  semantic_digest_eq_iff
    ⟨sample_readable.keyed, sample_readable.texts, sample_readable.lists, sample_readable.sizes⟩
    ⟨wellKeyed_reachable (.refl _), RecordCondition.holds_fresh _, RecordCondition.holds_fresh _,
      by constructor <;> decide +kernel⟩
    (by rw [serialize_length]; decide +kernel) (by rw [serialize_length]; decide +kernel)

/-! ## The digest in a trailer -/

/-- The digest that the trailer of an image holds. -/
def trailerDigest (data : List UInt8) : List UInt8 := (data.drop (data.length - 36 + 4)).take 32

theorem trailerDigest_append {content word digest : List UInt8} (hword : word.length = 4) (hdigest : digest.length = 32) :
    trailerDigest (content ++ word ++ digest) = digest := by
  have hlen : (content ++ word ++ digest).length - 36 + 4 = (content ++ word).length := by
    simp only [List.length_append]
    omega
  rw [trailerDigest, hlen, List.drop_left, List.take_of_length_le hdigest.le]

theorem trailerDigest_serialize (r : Registry) : trailerDigest r.serialize = sha256 r.put_content := by
  rw [serialize, withTrailer]
  exact trailerDigest_append rfl (sha256_length _)

/-- An image under the digest of `r` that is not refused restores `r`, or its content
collides with that of `r`. -/
theorem load_from_same_digest (hr : r.Readable) (hlr : r.put_content.length < 2 ^ 61) (hdata : data.length < 2 ^ 61)
    (hdigest : trailerDigest data = trailerDigest r.serialize) (s : Registry) :
    (∃ e t, s.load_from data = (.error e, t)) ∨ s.load_from data = (.ok (), r.recovered) ∨
      Sha256Collides (sealedContent data) r.put_content := by
  by_cases hsealed : Sealed data
  · have hcontent : (sealedContent data).length < 2 ^ 61 := by
      rw [sealedContent, List.length_take]
      omega
    have hsha : sha256 (sealedContent data) = sha256 r.put_content := by
      rw [← trailerDigest_serialize, ← hdigest]
      exact hsealed.2.2
    refine .inr (((sha256_eq_iff hcontent hlr).1 hsha).imp_left fun heq => ?_)
    -- the content and its two checksums are the whole image
    rw [hsealed.eq, heq, ← serialize_sealWord, load_from_serialize_restore hr, restore_withRecords]
  · obtain ⟨message, hmessage⟩ := load_from_unsealed hsealed s
    exact .inl ⟨_, _, hmessage⟩

/-- The content of a new registry under the digest of the sample's. -/
def Sample.forged : List UInt8 :=
  fresh.put_content ++ put_u32 (crc32 fresh.put_content) ++ sha256 Sample.registry.put_content

theorem load_from_same_digest_forged :
    (∃ e t, fresh.load_from Sample.forged = (.error e, t)) ∨
      fresh.load_from Sample.forged = (.ok (), Sample.registry.recovered) ∨
      Sha256Collides (sealedContent Sample.forged) Sample.registry.put_content := by
  have hlen : Sample.forged.length = fresh.put_content.length + 36 := by simp [Sample.forged]
  have hdigest : trailerDigest Sample.forged = trailerDigest Sample.registry.serialize := by
    rw [trailerDigest_serialize]
    exact trailerDigest_append rfl (sha256_length _)
  exact load_from_same_digest sample_readable (by decide +kernel) (by rw [hlen]; decide +kernel) hdigest fresh

end Registry

end RuntimeRegistry
