import RuntimeRegistry.Checksums
import RuntimeRegistry.Codec
/-!
# Frames

A message on the wire is a frame: a magic number, a version, the kind, the length
of the payload, the payload, and a CRC-32 of everything behind the magic number.
The decoder takes one whole frame. It accepts the encodings of the frames whose
payload is within the bound, and nothing else.
-/

namespace RuntimeRegistry

def kFrameMagic : UInt32 := 0x52524631
def kFrameVersion : UInt8 := 1
def kMaxPayload : UInt32 := 64 * 1024

inductive MessageKind
  | HELLO | REGISTER_RUNTIME | REGISTER_SERVICE | REGISTER_ENDPOINT | REGISTER_CAPABILITY | UPDATE_HEALTH
  | UPDATE_READINESS | RENEW_LEASE | INVALIDATE | TOMBSTONE | QUERY | QUERY_RESULT | SAVE | RECOVER | ACK | ERROR
deriving DecidableEq

/-- `static_cast<std::uint8_t>(k)` -/
def MessageKind.toByte : MessageKind → UInt8
  | .HELLO => 1
  | .REGISTER_RUNTIME => 2
  | .REGISTER_SERVICE => 3
  | .REGISTER_ENDPOINT => 4
  | .REGISTER_CAPABILITY => 5
  | .UPDATE_HEALTH => 6
  | .UPDATE_READINESS => 7
  | .RENEW_LEASE => 8
  | .INVALIDATE => 9
  | .TOMBSTONE => 10
  | .QUERY => 11
  | .QUERY_RESULT => 12
  | .SAVE => 13
  | .RECOVER => 14
  | .ACK => 15
  | .ERROR => 16

def message_kind_from_u8 (v : UInt8) : MessageKind :=
  if v = 1 then .HELLO
  else if v = 2 then .REGISTER_RUNTIME
  else if v = 3 then .REGISTER_SERVICE
  else if v = 4 then .REGISTER_ENDPOINT
  else if v = 5 then .REGISTER_CAPABILITY
  else if v = 6 then .UPDATE_HEALTH
  else if v = 7 then .UPDATE_READINESS
  else if v = 8 then .RENEW_LEASE
  else if v = 9 then .INVALIDATE
  else if v = 10 then .TOMBSTONE
  else if v = 11 then .QUERY
  else if v = 12 then .QUERY_RESULT
  else if v = 13 then .SAVE
  else if v = 14 then .RECOVER
  else if v = 15 then .ACK
  else .ERROR

structure Frame where
  kind : MessageKind := .ACK
  payload : List UInt8
deriving DecidableEq

/-- The four bytes at the head of `p`, the lowest first. -/
def get_u32 (p : List UInt8) : UInt32 :=
  (p.getD 0 0).toUInt32 ||| (p.getD 1 0).toUInt32 <<< 8 ||| (p.getD 2 0).toUInt32 <<< 16 ||| (p.getD 3 0).toUInt32 <<< 24

/-- A payload above the bound gives no bytes. The length is cut to 32 bits first. -/
def encode_frame (f : Frame) : List UInt8 :=
  let len := UInt32.ofNat f.payload.length
  if len > kMaxPayload then []
  else
    let covered := put_u8 kFrameVersion ++ put_u8 f.kind.toByte ++ put_u32 len ++ f.payload
    put_u32 kFrameMagic ++ covered ++ put_u32 (crc32 covered)

def decode_frame (data : List UInt8) : Option Frame :=
  if data.length < 10 then none
  else if get_u32 data ≠ kFrameMagic then none
  else if data.getD 4 0 ≠ kFrameVersion then none
  else
    let kind := data.getD 5 0
    if kind < 1 ∨ kind > 16 then none
    else
      let len := get_u32 (data.drop 6)
      if len > kMaxPayload then none
      else
        let content_end := 10 + len.toNat
        let total := content_end + 4
        if data.length ≠ total then none
        else
          let stored_crc := get_u32 (data.drop content_end)
          let computed := crc32 ((data.take content_end).drop 4)
          if stored_crc ≠ computed then none
          else some { kind := message_kind_from_u8 kind, payload := (data.drop 10).take len.toNat }

/-! ## Kinds and words -/

theorem kind_in_range (k : MessageKind) : ¬ (k.toByte < 1 ∨ k.toByte > 16) := by cases k <;> decide

@[simp] theorem message_kind_from_toByte (k : MessageKind) : message_kind_from_u8 k.toByte = k := by cases k <;> rfl

/-- The bytes 1 to 16 are those of the kinds. -/
theorem toByte_message_kind {v : UInt8} (h : ¬ (v < 1 ∨ v > 16)) : (message_kind_from_u8 v).toByte = v := by
  have hall : ∀ n : Fin 256, ¬ (UInt8.ofFin n < 1 ∨ UInt8.ofFin n > 16) →
      (message_kind_from_u8 (UInt8.ofFin n)).toByte = UInt8.ofFin n := by decide +kernel
  exact hall v.toFin h

/-- A word is told by its four bytes, and four bytes by their word. -/
theorem get_put_u32 (v : UInt32) (rest : List UInt8) : get_u32 (put_u32 v ++ rest) = v := by
  apply UInt32.toBitVec_inj.1
  apply BitVec.eq_of_getLsbD_eq
  intro i hi
  simp only [get_u32, put_u32, List.cons_append, List.nil_append, List.getD_cons_zero, List.getD_cons_succ,
    UInt32.toBitVec_or, UInt32.toBitVec_shiftLeft, UInt8.toBitVec_toUInt32, UInt32.toBitVec_toUInt8,
    UInt32.toBitVec_shiftRight, BitVec.getLsbD_or]
  have h : i < 8 ∨ (8 ≤ i ∧ i < 16) ∨ (16 ≤ i ∧ i < 24) ∨ (24 ≤ i ∧ i < 32) := by omega
  rcases h with h | h | h | h
  all_goals simp [BitVec.getLsbD_setWidth]
  all_goals grind

theorem put_get_u32 (a b c d : UInt8) (rest : List UInt8) : put_u32 (get_u32 (a :: b :: c :: d :: rest)) = [a, b, c, d] := by
  simp only [get_u32, put_u32, List.getD_cons_zero, List.getD_cons_succ, List.cons.injEq, and_true]
  refine ⟨?_, ?_, ?_, ?_⟩
  all_goals
    apply UInt8.toBitVec_inj.1
    apply BitVec.eq_of_getLsbD_eq
    intro i hi
    simp only [UInt32.toBitVec_or, UInt32.toBitVec_shiftLeft, UInt8.toBitVec_toUInt32, UInt32.toBitVec_toUInt8,
      UInt32.toBitVec_shiftRight]
  all_goals simp [BitVec.getLsbD_setWidth]
  all_goals grind

@[simp] theorem put_u32_length (v : UInt32) : (put_u32 v).length = 4 := rfl

/-! ## The codec -/

/-- The bytes behind the magic number that the checksum covers. -/
def covered (f : Frame) : List UInt8 :=
  put_u8 kFrameVersion ++ put_u8 f.kind.toByte ++ put_u32 (UInt32.ofNat f.payload.length) ++ f.payload

theorem payload_length_toNat {f : Frame} (h : f.payload.length ≤ kMaxPayload.toNat) :
    (UInt32.ofNat f.payload.length).toNat = f.payload.length := by
  have hmax : kMaxPayload.toNat = 65536 := rfl
  rw [UInt32.toNat_ofNat']
  omega

theorem encode_frame_eq {f : Frame} (h : f.payload.length ≤ kMaxPayload.toNat) :
    encode_frame f = put_u32 kFrameMagic ++ covered f ++ put_u32 (crc32 (covered f)) := by
  have hle : ¬ UInt32.ofNat f.payload.length > kMaxPayload := by
    rw [gt_iff_lt, UInt32.lt_iff_toNat_lt, payload_length_toNat h]
    omega
  simp only [encode_frame, if_neg hle]
  rfl

/-- A frame is sent whole, or no byte of it is. -/
theorem encode_frame_length_cases (f : Frame) :
    encode_frame f = [] ∨ (encode_frame f).length = 10 + f.payload.length + 4 := by
  unfold encode_frame
  dsimp only
  split_ifs
  · exact .inl rfl
  · right
    simp [put_u8]
    omega

/-- The bytes of a frame: ten of the header, the payload, and four of the checksum. -/
theorem encode_frame_length {f : Frame} (h : f.payload.length ≤ kMaxPayload.toNat) :
    (encode_frame f).length = 10 + f.payload.length + 4 := by
  refine (encode_frame_length_cases f).resolve_left ?_
  rw [encode_frame_eq h]
  simp [put_u32]

theorem four_bytes {bytes : List UInt8} (h : bytes.length = 4) : ∃ a b c d, bytes = [a, b, c, d] := by
  rcases bytes with _ | ⟨a, _ | ⟨b, _ | ⟨c, _ | ⟨d, rest⟩⟩⟩⟩
  all_goals try cases h
  obtain rfl : rest = [] := List.length_eq_zero_iff.1 (by simpa using h)
  exact ⟨a, b, c, d, rfl⟩

/-- What the decoder asks of a buffer that is cut where the encoder writes. -/
theorem decode_frame_pieces {magic len stored : List UInt8} (hmagic : magic.length = 4) (hlen : len.length = 4)
    (hstored : stored.length = 4) (version kind : UInt8) (payload : List UInt8) :
    decode_frame (magic ++ (version :: kind :: (len ++ (payload ++ stored)))) =
      if get_u32 magic = kFrameMagic ∧ version = kFrameVersion ∧ ¬ (kind < 1 ∨ kind > 16) ∧ get_u32 len ≤ kMaxPayload ∧
        payload.length = (get_u32 len).toNat ∧ get_u32 stored = crc32 (version :: kind :: (len ++ payload)) then
        some { kind := message_kind_from_u8 kind, payload := payload }
      else none := by
  obtain ⟨m₀, m₁, m₂, m₃, rfl⟩ := four_bytes hmagic
  obtain ⟨l₀, l₁, l₂, l₃, rfl⟩ := four_bytes hlen
  simp only [List.cons_append, List.nil_append]
  generalize hdata : m₀ :: m₁ :: m₂ :: m₃ :: version :: kind :: l₀ :: l₁ :: l₂ :: l₃ :: (payload ++ stored) = data
  have hsize : data.length = 10 + payload.length + 4 := by
    rw [← hdata]
    simp [hstored]
    omega
  have h₁ : get_u32 data = get_u32 [m₀, m₁, m₂, m₃] := by rw [← hdata]; rfl
  have h₂ : data.getD 4 0 = version := by rw [← hdata]; rfl
  have h₃ : data.getD 5 0 = kind := by rw [← hdata]; rfl
  have h₄ : get_u32 (data.drop 6) = get_u32 [l₀, l₁, l₂, l₃] := by rw [← hdata]; rfl
  have hshort : ¬ data.length < 10 := by omega
  simp only [decode_frame, if_neg hshort, h₁, h₂, h₃, h₄]
  by_cases hn : payload.length = (get_u32 [l₀, l₁, l₂, l₃]).toNat
  · have htotal : data.length = 10 + (get_u32 [l₀, l₁, l₂, l₃]).toNat + 4 := by rw [hsize, hn]
    have h₅ : data.drop (10 + payload.length) = stored := by
      rw [← hdata, Nat.add_comm]
      simp
    have h₆ : (data.take (10 + payload.length)).drop 4 = version :: kind :: l₀ :: l₁ :: l₂ :: l₃ :: payload := by
      rw [← hdata, Nat.add_comm]
      simp
    have h₇ : (data.drop 10).take payload.length = payload := by
      rw [← hdata]
      simp
    rw [← hn] at htotal ⊢
    simp only [htotal, h₅, h₆, h₇, gt_iff_lt, ← UInt32.not_le, ne_eq, not_true, if_false, true_and]
    split_ifs <;> first | rfl | tauto
  · have htotal : data.length ≠ 10 + (get_u32 [l₀, l₁, l₂, l₃]).toNat + 4 := by omega
    simp only [htotal, hn, ne_eq, not_false_eq_true, if_true, false_and, and_false, if_false]
    split_ifs <;> rfl

/-- A buffer that is long enough is cut where the encoder writes. -/
theorem cut_frame {data : List UInt8} (h : 14 ≤ data.length) : ∃ magic version kind len payload stored,
    magic.length = 4 ∧ len.length = 4 ∧ stored.length = 4 ∧
      data = magic ++ (version :: kind :: (len ++ (payload ++ stored))) := by
  rcases data with _ | ⟨m₀, _ | ⟨m₁, _ | ⟨m₂, _ | ⟨m₃, _ | ⟨version, _ | ⟨kind, _ | ⟨l₀, _ | ⟨l₁, _ | ⟨l₂, _ | ⟨l₃,
    rest⟩⟩⟩⟩⟩⟩⟩⟩⟩⟩
  iterate 10
    · simp at h
  refine ⟨[m₀, m₁, m₂, m₃], version, kind, [l₀, l₁, l₂, l₃], rest.take (rest.length - 4), rest.drop (rest.length - 4),
    rfl, rfl, ?_, ?_⟩
  · simp only [List.length_cons] at h
    rw [List.length_drop]
    omega
  · rw [List.take_append_drop]
    rfl

theorem decode_frame_short {data : List UInt8} (h : data.length < 14) : decode_frame data = none := by
  unfold decode_frame
  dsimp only
  have htotal : data.length ≠ 10 + (get_u32 (data.drop 6)).toNat + 4 := by omega
  simp only [htotal, ne_eq, not_false_eq_true, if_true]
  split_ifs <;> rfl

theorem put_u32_get {bytes : List UInt8} (h : bytes.length = 4) : put_u32 (get_u32 bytes) = bytes := by
  obtain ⟨a, b, c, d, rfl⟩ := four_bytes h
  exact put_get_u32 a b c d []

theorem get_u32_put (v : UInt32) : get_u32 (put_u32 v) = v := by
  have h := get_put_u32 v []
  rwa [List.append_nil] at h

/-- The decoder accepts the encodings of the frames within the bound, each as the
frame it encodes, and nothing else. -/
theorem decode_frame_eq_some_iff (data : List UInt8) (f : Frame) :
    decode_frame data = some f ↔ f.payload.length ≤ kMaxPayload.toNat ∧ encode_frame f = data := by
  constructor
  · intro h
    by_cases hlong : 14 ≤ data.length
    · obtain ⟨magic, version, kind, len, payload, stored, hm, hl, hs, rfl⟩ := cut_frame hlong
      rw [decode_frame_pieces hm hl hs] at h
      obtain ⟨⟨hmagic, rfl, hkind, hmax, hpayload, hcrc⟩, hf⟩ := Option.ite_none_right_eq_some.1 h
      obtain rfl := Option.some.inj hf
      have hbound : payload.length ≤ kMaxPayload.toNat := by
        rw [hpayload]
        exact UInt32.le_iff_toNat_le.1 hmax
      refine ⟨hbound, ?_⟩
      have hcovered : covered ⟨message_kind_from_u8 kind, payload⟩ = kFrameVersion :: kind :: (len ++ payload) := by
        rw [covered, toByte_message_kind hkind, hpayload, UInt32.ofNat_toNat, put_u32_get hl]
        rfl
      rw [encode_frame_eq hbound, hcovered, ← hcrc, ← hmagic, put_u32_get hm, put_u32_get hs]
      simp
    · rw [decode_frame_short (by omega)] at h
      cases h
  · rintro ⟨hbound, rfl⟩
    have hcut : encode_frame f = put_u32 kFrameMagic ++ (kFrameVersion :: f.kind.toByte ::
        (put_u32 (UInt32.ofNat f.payload.length) ++ (f.payload ++ put_u32 (crc32 (covered f))))) := by
      rw [encode_frame_eq hbound]
      simp [covered, put_u8]
    have hmax : UInt32.ofNat f.payload.length ≤ kMaxPayload := by
      rw [UInt32.le_iff_toNat_le, payload_length_toNat hbound]
      exact hbound
    rw [hcut, decode_frame_pieces rfl rfl rfl, get_u32_put, get_u32_put, get_u32_put, payload_length_toNat hbound]
    rw [if_pos ⟨rfl, rfl, kind_in_range f.kind, hmax, rfl, rfl⟩, message_kind_from_toByte]

/-- The codec is a bijection between the frames within the bound and the buffers
that the decoder accepts. -/
theorem frame_codec_bijective :
    (∀ f : Frame, f.payload.length ≤ kMaxPayload.toNat → decode_frame (encode_frame f) = some f) ∧
    (∀ data f, decode_frame data = some f → encode_frame f = data) ∧
    ∀ data, (decode_frame data).isSome ↔ ∃ f : Frame, f.payload.length ≤ kMaxPayload.toNat ∧ encode_frame f = data := by
  refine ⟨fun f h => (decode_frame_eq_some_iff _ f).2 ⟨h, rfl⟩, fun data f h => ((decode_frame_eq_some_iff data f).1 h).2, ?_⟩
  intro data
  rw [Option.isSome_iff_exists]
  simp only [decode_frame_eq_some_iff]

/-- The frame of a greeting. -/
theorem frame_codec_bijective_greeting :
    let f : Frame := ⟨.HELLO, text "HELLO,1"⟩
    let data : List UInt8 := [0x31, 0x46, 0x52, 0x52, 0x01, 0x01, 0x07, 0x00, 0x00, 0x00, 0x48, 0x45, 0x4c, 0x4c, 0x4f, 0x2c, 0x31,
      0x8e, 0x95, 0xe5, 0x17]
    decode_frame (encode_frame f) = some f ∧ encode_frame f = data ∧ (decode_frame data).isSome := by
  intro f data
  have hbound : f.payload.length ≤ kMaxPayload.toNat := by decide
  have hread : decode_frame data = some f := by decide +kernel
  have hwritten := frame_codec_bijective.2.1 data f hread
  exact ⟨frame_codec_bijective.1 f hbound, hwritten, (frame_codec_bijective.2.2 data).2 ⟨f, hbound, hwritten⟩⟩

end RuntimeRegistry
