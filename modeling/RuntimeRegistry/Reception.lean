import RuntimeRegistry.Lib.Chunks
import RuntimeRegistry.Frames
/-!
# Reception of frames

`recv_one` reads the ten bytes of a header in one call and the rest of the frame in
a loop. However the transport cuts the rest, the loop puts it together; a header
that is cut is taken for the end of the connection.
-/
open Lib

namespace RuntimeRegistry

/-- A connection as its reader sees it. -/
abbrev TcpSocket := Chunked UInt8

/-- `TcpSocket::recv` -/
def TcpSocket.recv (s : TcpSocket) (len : ℕ) : List UInt8 × TcpSocket := Chunked.read s len

/-- The loop of `recv_one`: `need` bytes of `body` are still missing. -/
def recvBody (s : TcpSocket) (body : List UInt8) (need : ℕ) : Option (List UInt8) × TcpSocket :=
  if need = 0 then (some body, s)
  else
    let n := TcpSocket.recv s need
    if n.1 = [] then (none, n.2)
    else recvBody n.2 (body ++ n.1) (need - n.1.length)
termination_by need
decreasing_by
  have hpos : 0 < (TcpSocket.recv s need).1.length := List.length_pos_iff.2 ‹_›
  omega

/-- The payload of the next frame, and nothing where there is none. -/
def recv_one (s : TcpSocket) : List UInt8 × TcpSocket :=
  let hdr := TcpSocket.recv s 10
  if hdr.1.length ≠ 10 then ([], hdr.2)
  else
    let len := get_u32 (hdr.1.drop 6)
    if len > kMaxPayload then ([], hdr.2)
    else
      let body := recvBody hdr.2 hdr.1 (len.toNat + 4)
      match body.1 >>= decode_frame with
      | none => ([], body.2)
      | some dec => (dec.payload, body.2)

/-- The worker reads a reply by the same steps. -/
def recv_line (s : TcpSocket) : List UInt8 × TcpSocket := recv_one s

/-- The first `n` rounds of the loop of `handle_connection`, as far as they receive:
an empty line ends it. -/
def recv_lines : ℕ → TcpSocket → List (List UInt8) × TcpSocket
  | 0, s => ([], s)
  | n + 1, s =>
    let line := recv_one s
    if line.1 = [] then ([], line.2)
    else
      let lines := recv_lines n line.2
      (line.1 :: lines.1, lines.2)

/-! ## One frame -/

/-- The loop puts the missing bytes together, however they are cut. -/
theorem recvBody_eq (s : TcpSocket) (body : List UInt8) (need : ℕ) (h : need ≤ s.stream.length) :
    recvBody s body need = (some (body ++ s.stream.take need), s.skip need) := by
  induction need using Nat.strong_induction_on generalizing s body with
  | _ need ih =>
    rw [recvBody]
    by_cases h0 : need = 0
    · subst h0
      simp
    · have hstream : s.stream ≠ [] := by
        intro hnil
        rw [hnil] at h
        exact h0 (Nat.le_zero.1 h)
      have hfront := List.length_pos_iff.2 (Chunked.front_ne_nil hstream)
      have hlen : (TcpSocket.recv s need).1.length = min need s.front.length := List.length_take
      have hbytes : (TcpSocket.recv s need).1 = s.stream.take (min need s.front.length) := by
        rw [Chunked.take_front s (Nat.min_le_right _ _)]
        exact List.take_eq_take_min
      have hnot : ¬ (TcpSocket.recv s need).1 = [] := by
        rw [← List.length_eq_zero_iff, hlen]
        omega
      have hskip : (TcpSocket.recv s need).2 = s.skip (min need s.front.length) := rfl
      have hrest := ih (need - min need s.front.length) (by omega) (s.skip (min need s.front.length))
        (body ++ s.stream.take (min need s.front.length)) (by rw [Chunked.stream_skip, List.length_drop]; omega)
      have hadd : min need s.front.length + (need - min need s.front.length) = need := by omega
      rw [if_neg h0]
      dsimp only
      rw [if_neg hnot, hlen, hskip, hbytes, hrest, Chunked.skip_skip, Chunked.stream_skip, List.append_assoc,
        ← List.take_add, hadd]

/-- The length stands in the header, behind the kind. -/
theorem header_length {f : Frame} (h : f.payload.length ≤ kMaxPayload.toNat) (rest : List UInt8) :
    get_u32 (((encode_frame f ++ rest).take 10).drop 6) = UInt32.ofNat f.payload.length := by
  rw [encode_frame_eq h]
  exact get_u32_put (UInt32.ofNat f.payload.length)

/-- A header that comes in one piece is followed by its frame. -/
theorem recv_one_whole {s : TcpSocket} {f : Frame} {rest : List UInt8} (hmax : f.payload.length ≤ kMaxPayload.toNat)
    (hs : s.stream = encode_frame f ++ rest) (hfront : 10 ≤ s.front.length) :
    recv_one s = (f.payload, s.skip (encode_frame f).length) := by
  have hsize := encode_frame_length hmax
  have hhdr : (TcpSocket.recv s 10).1 = s.stream.take 10 := (Chunked.take_front s hfront).symm
  have hskip : (TcpSocket.recv s 10).2 = s.skip 10 := congrArg s.skip (Nat.min_eq_left hfront)
  have hlen : get_u32 ((s.stream.take 10).drop 6) = UInt32.ofNat f.payload.length := by rw [hs, header_length hmax]
  have hten : (s.stream.take 10).length = 10 := by
    rw [hs, List.length_take, List.length_append]
    omega
  have hle : ¬ UInt32.ofNat f.payload.length > kMaxPayload := by
    rw [gt_iff_lt, UInt32.lt_iff_toNat_lt, payload_length_toNat hmax]
    omega
  have hbody : recvBody (s.skip 10) (s.stream.take 10) (f.payload.length + 4) =
      (some (encode_frame f), s.skip (encode_frame f).length) := by
    rw [recvBody_eq, Chunked.stream_skip, ← List.take_add, Chunked.skip_skip, hs]
    · have hadd : 10 + (f.payload.length + 4) = (encode_frame f).length := by omega
      rw [hadd, List.take_left]
    · rw [Chunked.stream_skip, hs, List.length_drop, List.length_append]
      omega
  have hdec : decode_frame (encode_frame f) = some f := (decode_frame_eq_some_iff _ f).2 ⟨hmax, rfl⟩
  simp only [recv_one, hhdr, hskip, hten, hlen, payload_length_toNat hmax, hbody, ne_eq, not_true, if_false, if_neg hle,
    Option.bind_eq_bind, Option.bind_some, hdec]

/-- A header that is cut is given up, and with it the part that has come. -/
theorem recv_one_cut {s : TcpSocket} (hfront : s.front.length < 10) : (recv_one s).1 = [] := by
  have hlen : (TcpSocket.recv s 10).1.length ≠ 10 := by
    have h : (TcpSocket.recv s 10).1.length = min 10 s.front.length := List.length_take
    omega
  simp only [recv_one, if_pos hlen]

/-! ## A sequence of frames -/

/-- The bytes of the frames `fs`. -/
def wire (fs : List Frame) : List UInt8 := fs.flatMap encode_frame

/-- Where the header of every frame comes in one piece. -/
def HeadersWhole (fs : List Frame) (s : TcpSocket) : Prop :=
  ∀ i < fs.length, 10 ≤ (s.skip (wire (fs.take i)).length).front.length

instance (fs : List Frame) (s : TcpSocket) : Decidable (HeadersWhole fs s) :=
  inferInstanceAs (Decidable (∀ i < fs.length, 10 ≤ (s.skip (wire (fs.take i)).length).front.length))

theorem headersWhole_cons (f : Frame) (fs : List Frame) (s : TcpSocket) :
    HeadersWhole (f :: fs) s ↔ 10 ≤ s.front.length ∧ HeadersWhole fs (s.skip (encode_frame f).length) := by
  have hshift : ∀ i, (s.skip (encode_frame f).length).skip (wire (fs.take i)).length =
      s.skip (wire ((f :: fs).take (i + 1))).length := by
    intro i
    rw [Chunked.skip_skip, List.take_succ_cons, wire, wire, List.flatMap_cons, List.length_append]
  constructor
  · intro h
    refine ⟨?_, ?_⟩
    · have h0 := h 0 (by simp)
      rwa [List.take_zero, wire, List.flatMap_nil, List.length_nil, Chunked.skip_zero] at h0
    · intro i hi
      rw [hshift]
      exact h (i + 1) (by simpa using hi)
  · rintro ⟨h0, h⟩ i hi
    cases i with
    | zero => rwa [List.take_zero, wire, List.flatMap_nil, List.length_nil, Chunked.skip_zero]
    | succ i =>
      rw [← hshift]
      exact h i (by simpa using hi)

/-- Frames are received in order, each with exactly its bytes, just where no header
is cut. How the payloads and the checksums are cut does not matter. -/
theorem recv_lines_eq_iff (fs : List Frame) (s : TcpSocket) (rest : List UInt8)
    (hfs : ∀ f ∈ fs, f.payload ≠ [] ∧ f.payload.length ≤ kMaxPayload.toNat) (hs : s.stream = wire fs ++ rest) :
    recv_lines fs.length s = (fs.map Frame.payload, s.skip (wire fs).length) ↔ HeadersWhole fs s := by
  induction fs generalizing s with
  | nil => simp [recv_lines, wire, HeadersWhole]
  | cons f fs ih =>
    rw [List.forall_mem_cons] at hfs
    obtain ⟨⟨hpayload, hmax⟩, hrest⟩ := hfs
    have hstream : s.stream = encode_frame f ++ (wire fs ++ rest) := by
      rw [hs, wire, List.flatMap_cons, List.append_assoc]
      rfl
    rw [headersWhole_cons]
    by_cases hfront : 10 ≤ s.front.length
    · have hone := recv_one_whole hmax hstream hfront
      have hnext : (s.skip (encode_frame f).length).stream = wire fs ++ rest := by
        rw [Chunked.stream_skip, hstream, List.drop_left]
      have hskip : s.skip (wire (f :: fs)).length = (s.skip (encode_frame f).length).skip (wire fs).length := by
        rw [Chunked.skip_skip, wire, List.flatMap_cons, List.length_append]
        rfl
      rw [← ih _ hrest hnext, List.length_cons, recv_lines, hone, hskip, List.map_cons, Prod.ext_iff, Prod.ext_iff]
      simp [hpayload, hfront]
    · have hone := recv_one_cut (not_le.1 hfront)
      simp [recv_lines, hone, hfront]

/-- Reception depends on how the transport cuts the bytes just where it cuts a header:
the ten bytes of a header are asked for once, and a shorter answer ends the connection. -/
theorem frames_received_iff (fs : List Frame) (s : TcpSocket) (rest : List UInt8)
    (hfs : ∀ f ∈ fs, f.payload ≠ [] ∧ f.payload.length ≤ kMaxPayload.toNat) (hs : s.stream = wire fs ++ rest) :
    recv_lines fs.length s = (fs.map Frame.payload, s.skip (wire fs).length) ↔ HeadersWhole fs s := by
  exact recv_lines_eq_iff fs s rest hfs hs

def ping : Frame := { kind := .HELLO, payload := [80, 73, 78, 71] }

/-- A frame of a worker that comes in one piece. -/
def pingWhole : TcpSocket := ⟨[encode_frame ping], by decide +kernel⟩

/-- The same bytes, cut behind the first one. -/
def pingCut : TcpSocket := ⟨[(encode_frame ping).take 1, (encode_frame ping).drop 1], by decide +kernel⟩

theorem frames_received_sample : recv_lines 1 pingWhole = ([ping.payload], pingWhole.skip (wire [ping]).length) := by
  apply (frames_received_iff [ping] pingWhole [] _ _).2
  · decide +kernel
  · decide +kernel
  · decide +kernel

theorem ping_cut_lost : pingCut.stream = encode_frame ping ∧ ping.payload ≠ [] ∧ (recv_one pingCut).1 = [] ∧
    (recv_line pingCut).1 = [] ∧ ¬ recv_one pingCut = (ping.payload, pingCut.skip (encode_frame ping).length) := by
  have hcut : (recv_one pingCut).1 = [] := recv_one_cut (by decide +kernel)
  refine ⟨by decide +kernel, by decide, hcut, hcut, ?_⟩
  intro h
  rw [h] at hcut
  exact absurd hcut (by decide)

end RuntimeRegistry
