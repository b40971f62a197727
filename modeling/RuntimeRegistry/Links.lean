import RuntimeRegistry.Reception
/-!
# The calls of a connection

The loops that send and receive a frame make one call after another, and what a call
moves is up to the transport. Between two calls a party stands somewhere in its loop,
and the bytes on the way make up, with those it holds, the frames that are still to come.
-/
open Lib

namespace RuntimeRegistry

/-! ## Receiving -/

/-- Where the loop of `recv_one` stands: before the call for the header, or with `need` bytes missing. -/
inductive Reading
  | header
  | body (got : List UInt8) (need : ℕ)

namespace Reading

/-- The bytes that are there already. -/
def got : Reading → List UInt8
  | header => []
  | body got _ => got

/-- The length that the next call asks for. -/
def want : Reading → ℕ
  | header => 10
  | body _ need => need

/-- What is left to do once a call has returned these bytes, or the payload that the loop ends with. -/
def recv (bytes : List UInt8) : Reading → Reading ⊕ List UInt8
  | header =>
    if bytes.length ≠ 10 then .inr []
    else
      let len := get_u32 (bytes.drop 6)
      if len > kMaxPayload then .inr [] else .inl (body bytes (len.toNat + 4))
  | body got need =>
    if bytes.length < need then .inl (body (got ++ bytes) (need - bytes.length))
    else .inr ((decode_frame (got ++ bytes)).elim [] Frame.payload)

/-- The header is there, and with it the length of the frame. -/
def Underway : Reading → Prop
  | header => True
  | body got need => 10 ≤ got.length ∧ 0 < need ∧ got.length + need = 14 + (get_u32 ((got.take 10).drop 6)).toNat

/-- The calls up to the end of the loop. -/
def run (r : Reading) (s : TcpSocket) : List UInt8 × TcpSocket :=
  let n := TcpSocket.recv s r.want
  if n.1 = [] then ([], n.2)
  else
    match r.recv n.1 with
    | .inl r' => run r' n.2
    | .inr line => (line, n.2)
termination_by s.stream.length
decreasing_by
  have hbytes : (TcpSocket.recv s r.want).1 ≠ [] := ‹_›
  have hpos : 0 < min r.want s.front.length := by
    have h : (TcpSocket.recv s r.want).1.length = min r.want s.front.length := List.length_take
    rw [← h]
    exact List.length_pos_iff.2 hbytes
  have hfront : s.front.length ≤ s.stream.length := by
    rcases hs : s.chunks with _ | ⟨c, cs⟩ <;> simp [Chunked.front, Chunked.stream, hs]
  show (s.skip (min r.want s.front.length)).stream.length < s.stream.length
  rw [Chunked.stream_skip, List.length_drop]
  omega

theorem run_end {r : Reading} {s : TcpSocket} (h : (TcpSocket.recv s r.want).1 = []) :
    r.run s = ([], (TcpSocket.recv s r.want).2) := by
  rw [run]
  exact if_pos h

theorem run_more {r r' : Reading} {s : TcpSocket} (h : (TcpSocket.recv s r.want).1 ≠ [])
    (hr : r.recv (TcpSocket.recv s r.want).1 = .inl r') : r.run s = r'.run (TcpSocket.recv s r.want).2 := by
  rw [run, if_neg h, hr]

theorem run_done {r : Reading} {s : TcpSocket} {line : List UInt8} (h : (TcpSocket.recv s r.want).1 ≠ [])
    (hr : r.recv (TcpSocket.recv s r.want).1 = .inr line) : r.run s = (line, (TcpSocket.recv s r.want).2) := by
  rw [run, if_neg h, hr]

theorem run_body (s : TcpSocket) (got : List UInt8) {need : ℕ} (hneed : 0 < need) :
    (body got need).run s = match (recvBody s got need).1 >>= decode_frame with
      | none => ([], (recvBody s got need).2)
      | some dec => (dec.payload, (recvBody s got need).2) := by
  induction need using Nat.strong_induction_on generalizing s got with
  | _ need ih =>
    rw [recvBody, if_neg hneed.ne']
    by_cases hend : (TcpSocket.recv s need).1 = []
    · rw [run_end hend]
      simp [hend, want]
    · by_cases hlt : (TcpSocket.recv s need).1.length < need
      · have hpos := List.length_pos_iff.2 hend
        rw [run_more (r := body got need) hend (if_pos hlt), if_neg hend]
        exact ih (need - (TcpSocket.recv s need).1.length) (by omega) _ _ (by omega)
      · have hdone : need - (TcpSocket.recv s need).1.length = 0 := by omega
        rw [run_done (r := body got need) hend (if_neg hlt), if_neg hend]
        rw [hdone, recvBody, if_pos rfl]
        cases hdec : decode_frame (got ++ (TcpSocket.recv s need).1) <;> simp [hdec, want]

/-- The calls one by one are `recv_one`. -/
theorem run_header (s : TcpSocket) : header.run s = recv_one s := by
  rw [recv_one]
  by_cases hend : (TcpSocket.recv s 10).1 = []
  · rw [run_end hend]
    simp [hend, want]
  · by_cases hten : (TcpSocket.recv s 10).1.length ≠ 10
    · rw [run_done (r := header) hend (if_pos hten)]
      exact (if_pos hten).symm
    · by_cases hmax : get_u32 ((TcpSocket.recv s 10).1.drop 6) > kMaxPayload
      · rw [run_done (r := header) hend ((if_neg hten).trans (if_pos hmax))]
        exact ((if_neg hten).trans (if_pos hmax)).symm
      · rw [run_more (r := header) hend ((if_neg hten).trans (if_neg hmax)), run_body _ _ (by omega)]
        exact ((if_neg hten).trans (if_neg hmax)).symm

theorem Underway.want_pos {r : Reading} (h : r.Underway) : 0 < r.want := by
  cases r with
  | header => decide
  | body got need => exact h.2.1

section frames

variable {r : Reading} {f : Frame} {bytes rest tail : List UInt8}

/-- The header says how much is missing. -/
theorem Underway.missing {got : List UInt8} {need : ℕ} (h : (body got need).Underway)
    (hmax : f.payload.length ≤ kMaxPayload.toNat) (hs : got ++ rest = encode_frame f ++ tail) :
    got.length + need = (encode_frame f).length := by
  obtain ⟨hten, _, hlen⟩ := h
  have hfront : got.take 10 = (encode_frame f ++ tail).take 10 := by rw [← hs, List.take_append_of_le_length hten]
  rw [hlen, hfront, header_length hmax, payload_length_toNat hmax, encode_frame_length hmax]
  omega

/-- A call asks for nothing behind the frame. -/
theorem Underway.want_le (h : r.Underway) (hmax : f.payload.length ≤ kMaxPayload.toNat)
    (hs : r.got ++ rest = encode_frame f ++ tail) : r.want ≤ rest.length := by
  have hsum := congrArg List.length hs
  simp only [List.length_append] at hsum
  cases r with
  | header =>
    have hsize := encode_frame_length hmax
    simp only [got, want, List.length_nil] at hsum ⊢
    omega
  | body got need =>
    have hmissing := h.missing hmax hs
    simp only [Reading.got, want] at hsum ⊢
    omega

/-- A call that does not end the loop keeps what it returned. -/
theorem recv_more {r' : Reading} (h : r.Underway) (hlen : bytes.length ≤ r.want) (hr : r.recv bytes = .inl r') :
    r'.Underway ∧ r'.got = r.got ++ bytes := by
  cases r with
  | header =>
    by_cases hten : bytes.length ≠ 10
    · cases (if_pos hten).symm.trans hr
    · by_cases hle : get_u32 (bytes.drop 6) > kMaxPayload
      · cases ((if_neg hten).trans (if_pos hle)).symm.trans hr
      · cases ((if_neg hten).trans (if_neg hle)).symm.trans hr
        rw [not_not] at hten
        refine ⟨⟨hten.ge, by omega, ?_⟩, rfl⟩
        rw [List.take_of_length_le hten.le]
        omega
  | body got need =>
    have hten := h.1
    have hmissing := h.2.2
    have hwant : bytes.length ≤ need := hlen
    by_cases hlt : bytes.length < need
    · cases (if_pos hlt).symm.trans hr
      refine ⟨⟨?_, by omega, ?_⟩, rfl⟩
      · rw [List.length_append]
        omega
      · rw [List.take_append_of_le_length hten, List.length_append]
        omega
    · cases (if_neg hlt).symm.trans hr

/-- Where the bytes are those of a frame, the loop ends with its payload, unless the header
was cut. -/
theorem recv_frame {line : List UInt8} (h : r.Underway) (hmax : f.payload.length ≤ kMaxPayload.toNat)
    (hs : r.got ++ (bytes ++ rest) = encode_frame f ++ tail) (hlen : bytes.length ≤ r.want) (hr : r.recv bytes = .inr line) :
    line = [] ∧ bytes.length < r.want ∨ line = f.payload ∧ r.got ++ bytes = encode_frame f := by
  cases r with
  | header =>
    by_cases hten : bytes.length ≠ 10
    · cases (if_pos hten).symm.trans hr
      exact .inl ⟨rfl, lt_of_le_of_ne hlen hten⟩
    · have hfront : bytes = (encode_frame f ++ tail).take 10 := by
        rw [← hs, ← not_not.1 hten]
        exact (List.take_left' rfl).symm
      have hword : get_u32 (bytes.drop 6) = UInt32.ofNat f.payload.length := by rw [hfront, header_length hmax]
      have hle : ¬ get_u32 (bytes.drop 6) > kMaxPayload := by
        rw [hword, gt_iff_lt, UInt32.lt_iff_toNat_lt, payload_length_toNat hmax]
        omega
      cases ((if_neg hten).trans (if_neg hle)).symm.trans hr
  | body got need =>
    have hmissing := h.missing hmax hs
    have hwant : bytes.length ≤ need := hlen
    by_cases hlt : bytes.length < need
    · cases (if_pos hlt).symm.trans hr
    · have hboth : got ++ bytes ++ rest = encode_frame f ++ tail := by rw [List.append_assoc]; exact hs
      have hall : got ++ bytes = encode_frame f := (List.append_inj hboth (by rw [List.length_append]; omega)).1
      have hdec : decode_frame (encode_frame f) = some f := (decode_frame_eq_some_iff _ f).2 ⟨hmax, rfl⟩
      cases (if_neg hlt).symm.trans hr
      exact .inr ⟨by rw [hall, hdec]; rfl, hall⟩

end frames

end Reading

/-! ## A connection -/

/-- A frame that can be sent, and whose payload does not read as the end of a connection. -/
def Frame.Fits (f : Frame) : Prop := f.payload ≠ [] ∧ f.payload.length ≤ kMaxPayload.toNat

/-- Where the bytes are those of frames, the loop ends with the payload of the first, unless the
header was cut, and the others are left. -/
theorem Reading.recv_wire {r : Reading} {bytes rest line : List UInt8} {fs : List Frame} (h : r.Underway)
    (hfit : ∀ f ∈ fs, f.Fits) (hs : r.got ++ (bytes ++ rest) = wire fs) (hne : bytes ≠ []) (hlen : bytes.length ≤ r.want)
    (hr : r.recv bytes = .inr line) :
    ∃ f gs, fs = f :: gs ∧ (line = [] ∧ bytes.length < r.want ∨ line = f.payload ∧ rest = wire gs) := by
  cases fs with
  | nil =>
    have hnil := (List.append_eq_nil_iff.1 hs).2
    exact absurd (List.append_eq_nil_iff.1 hnil).1 hne
  | cons f gs =>
    rw [wire, List.flatMap_cons] at hs
    refine ⟨f, gs, rfl, (recv_frame h (hfit f List.mem_cons_self).2 hs hlen hr).imp_right ?_⟩
    rintro ⟨hline, hframe⟩
    rw [← List.append_assoc, hframe] at hs
    exact ⟨hline, List.append_cancel_left hs⟩

/-- What a party is doing: it has bytes left in `TcpSocket::send`, or waits in the loop of
`recv_one`, or does neither any more. -/
inductive Phase
  | sending (rest : List UInt8)
  | reading (r : Reading)
  | gone

namespace Phase

/-- `TcpSocket::send` ends once nothing is left, and the party turns to the answer. -/
def sendFrom (rest : List UInt8) : Phase := if rest = [] then reading .header else sending rest

/-- The bytes that are not sent yet. -/
def rest : Phase → List UInt8
  | sending rest => rest
  | _ => []

/-- The bytes that are received already. -/
def got : Phase → List UInt8
  | reading r => r.got
  | _ => []

/-- Each call is one that can move bytes. -/
def Sound : Phase → Prop
  | sending rest => rest ≠ []
  | reading r => r.Underway
  | gone => True

@[simp] theorem rest_sendFrom (rest : List UInt8) : (sendFrom rest).rest = rest := by
  by_cases h : rest = [] <;> simp [sendFrom, Phase.rest, h]

@[simp] theorem got_sendFrom (rest : List UInt8) : (sendFrom rest).got = [] := by
  by_cases h : rest = [] <;> simp [sendFrom, got, Reading.got, h]

@[simp] theorem sendFrom_ne_gone (rest : List UInt8) : sendFrom rest ≠ gone := by
  by_cases h : rest = [] <;> simp [sendFrom, h]

theorem sound_sendFrom (rest : List UInt8) : (sendFrom rest).Sound := by
  by_cases h : rest = [] <;> simp [sendFrom, Sound, Reading.Underway, h]

end Phase

/-- A connection: the bytes on the way to the coordinator and to the worker, how many frames
the worker has begun to send and what it has heard, and what the coordinator has told it. -/
structure Link where
  up : List UInt8 := []
  down : List UInt8 := []
  worker : Phase := .gone
  handler : Phase := .reading .header
  started : ℕ := 0
  heard : List (List UInt8) := []
  told : List Frame := []

namespace Link

/-- The worker begins its next frame, if there is one. -/
def start (frames : List Frame) (l : Link) : Link :=
  match frames[l.started]? with
  | some f => { l with worker := .sendFrom (encode_frame f), started := l.started + 1 }
  | none => { l with worker := .gone }

/-- A call of `send` or `recv` that moves `n` bytes, or the end of the worker. A call that
fails finds the connection dead, and so do all that the worker makes after it. -/
inductive Moves (frames : List Frame) : Link → Link → Prop
  | send {l : Link} {rest : List UInt8} {n : ℕ} (phase : l.worker = .sending rest) (pos : 0 < n) (le : n ≤ rest.length) :
    Moves frames l { l with up := l.up ++ rest.take n, worker := .sendFrom (rest.drop n) }
  | wait {l : Link} {r r' : Reading} {n : ℕ} (phase : l.worker = .reading r) (pos : 0 < n) (le : n ≤ l.down.length)
    (want : n ≤ r.want) (more : r.recv (l.down.take n) = .inl r') :
    Moves frames l { l with down := l.down.drop n, worker := .reading r' }
  | hear {l : Link} {r : Reading} {line : List UInt8} {n : ℕ} (phase : l.worker = .reading r) (pos : 0 < n)
    (le : n ≤ l.down.length) (want : n ≤ r.want) (done : r.recv (l.down.take n) = .inr line) :
    Moves frames l (start frames { l with down := l.down.drop n, heard := l.heard ++ [line] })
  | vanish {l : Link} : Moves frames l { l with worker := .gone }
  | receive {l : Link} {r r' : Reading} {n : ℕ} (phase : l.handler = .reading r) (pos : 0 < n) (le : n ≤ l.up.length)
    (want : n ≤ r.want) (more : r.recv (l.up.take n) = .inl r') :
    Moves frames l { l with up := l.up.drop n, handler := .reading r' }
  | answer {l : Link} {rest : List UInt8} {n : ℕ} (phase : l.handler = .sending rest) (pos : 0 < n) (le : n ≤ rest.length) :
    Moves frames l { l with down := l.down ++ rest.take n, handler := .sendFrom (rest.drop n) }

/-- The call of the handler that ends with the line. -/
def Hands (l : Link) (n : ℕ) (line : List UInt8) : Prop :=
  ∃ r, l.handler = .reading r ∧ 0 < n ∧ n ≤ l.up.length ∧ n ≤ r.want ∧ r.recv (l.up.take n) = .inr line

theorem Hands.open {l : Link} {n : ℕ} {line : List UInt8} (h : l.Hands n line) : l.handler ≠ .gone := by
  obtain ⟨r, hphase, _⟩ := h
  rw [hphase]
  simp

/-- The handler has taken `n` bytes, and answers what it read with these. -/
def handled (l : Link) (n : ℕ) (reply : List UInt8) : Link :=
  { l with up := l.up.drop n, handler := .sendFrom reply, told := l.told ++ (decode_frame reply).toList }

/-- The handler leaves its loop. -/
def hungUp (l : Link) : Link := { l with handler := .gone }

/-! ## The invariant -/

/-- The bytes at the coordinator, those on the way and those at the worker make up the frames
that are not handled; so do, for the answers, the bytes the other way, until a header is cut. -/
structure Kept (frames : List Frame) (l : Link) (sent : ℕ) : Prop where
  worker : l.worker.Sound
  handler : l.handler.Sound
  sent_le : sent ≤ l.started
  started_le : l.started ≤ frames.length
  up : l.handler ≠ .gone → ∃ cut, l.handler.got ++ (l.up ++ (l.worker.rest ++ cut)) = wire ((frames.take l.started).drop sent) ∧
    (l.worker ≠ .gone → cut = [])
  told_length : l.told.length = sent
  told : ∀ f ∈ l.told, f.Fits
  heard_le : [] ∉ l.heard → l.heard.length ≤ l.told.length
  heard : [] ∉ l.heard → l.heard = (l.told.take l.heard.length).map Frame.payload
  lockstep : [] ∉ l.heard → l.worker ≠ .gone → l.started = l.heard.length + 1
  down : [] ∉ l.heard → l.worker ≠ .gone → ∃ cut,
    l.worker.got ++ (l.down ++ (l.handler.rest ++ cut)) = wire (l.told.drop l.heard.length) ∧ (l.handler ≠ .gone → cut = [])

variable {frames : List Frame} {l l' : Link} {sent : ℕ}

theorem wire_append (fs gs : List Frame) : wire (fs ++ gs) = wire fs ++ wire gs := List.flatMap_append

theorem take_drop_split (n : ℕ) (xs ys : List UInt8) : xs.take n ++ (xs.drop n ++ ys) = xs ++ ys := by
  rw [← List.append_assoc, List.take_append_drop]

/-- A worker that waited begins its next frame. -/
theorem Kept.start (h : l.Kept frames sent) {r : Reading} (hphase : l.worker = .reading r) {down heard}
    (hheard : [] ∉ heard → [] ∉ l.heard ∧ heard.length = l.heard.length + 1 ∧ heard.length ≤ l.told.length ∧
      heard = (l.told.take heard.length).map Frame.payload ∧ ∃ cut,
      down ++ (l.handler.rest ++ cut) = wire (l.told.drop heard.length) ∧ (l.handler ≠ .gone → cut = [])) :
    (Link.start frames { l with down := down, heard := heard }).Kept frames sent := by
  have halive : l.worker ≠ .gone := by rw [hphase]; simp
  unfold Link.start
  dsimp only
  rcases hf : frames[l.started]? with _ | f
  · show Kept frames { l with down := down, heard := heard, worker := .gone } sent
    exact { h with
      worker := trivial
      up := fun hopen => by
        obtain ⟨cut, hup, _⟩ := h.up hopen
        exact ⟨l.worker.rest ++ cut, hup, fun hne => absurd rfl hne⟩
      heard_le := fun hn => (hheard hn).2.2.1
      heard := fun hn => (hheard hn).2.2.2.1
      lockstep := fun _ hne => absurd rfl hne
      down := fun _ hne => absurd rfl hne }
  · obtain ⟨hlt, hget⟩ := List.getElem?_eq_some_iff.1 hf
    refine { h with
      worker := Phase.sound_sendFrom _
      sent_le := by have := h.sent_le; simp only; omega
      started_le := hlt
      up := fun hopen => ?_
      heard_le := fun hn => (hheard hn).2.2.1
      heard := fun hn => (hheard hn).2.2.2.1
      lockstep := fun hn _ => ?_
      down := fun hn _ => ?_ }
    · obtain ⟨cut, hup, hcut⟩ := h.up hopen
      obtain rfl := hcut halive
      refine ⟨[], ?_, fun _ => rfl⟩
      have hrest : l.worker.rest = [] := by rw [hphase]; rfl
      have htake : (frames.take (l.started + 1)).drop sent = (frames.take l.started).drop sent ++ [f] := by
        rw [List.take_add_one, hf, Option.toList_some, List.drop_append_of_le_length]
        rw [List.length_take]
        have := h.sent_le
        omega
      have hone : wire [f] = encode_frame f := by simp [wire]
      rw [hrest, List.append_nil, List.append_nil] at hup
      simp only [Phase.rest_sendFrom, List.append_nil]
      rw [htake, wire_append, ← hup, hone, List.append_assoc]
    · obtain ⟨hn', hlen, _⟩ := hheard hn
      show l.started + 1 = heard.length + 1
      rw [h.lockstep hn' halive, hlen]
    · obtain ⟨_, _, _, _, cut, hdown, hcut⟩ := hheard hn
      exact ⟨cut, by simpa using hdown, hcut⟩

/-- What the worker reads is the first answer that it has not heard, unless it cuts its header. -/
theorem Kept.next_answer (h : l.Kept frames sent) {r : Reading} {n : ℕ} {line : List UInt8} (hphase : l.worker = .reading r)
    (hpos : 0 < n) (hle : n ≤ l.down.length) (hwant : n ≤ r.want) (hdone : r.recv (l.down.take n) = .inr line)
    (hn : [] ∉ l.heard) : ∃ f fs cut, l.told.drop l.heard.length = f :: fs ∧ (l.handler ≠ .gone → cut = []) ∧
      (line = [] ∧ n < r.want ∨ line = f.payload ∧ l.down.drop n ++ (l.handler.rest ++ cut) = wire fs) := by
  have hsound : r.Underway := by have := h.worker; rwa [hphase] at this
  have hlen : (l.down.take n).length = n := by rw [List.length_take]; omega
  obtain ⟨cut, hdown, hcut⟩ := h.down hn (by rw [hphase]; simp)
  rw [hphase, ← take_drop_split n l.down] at hdown
  obtain ⟨f, fs, htold, hread⟩ := Reading.recv_wire hsound (fun f hf => h.told f (List.mem_of_mem_drop hf)) hdown
    (List.ne_nil_of_length_pos (by omega)) (by omega) hdone
  rw [hlen] at hread
  exact ⟨f, fs, cut, htold, hcut, hread⟩

/-- Every call keeps the invariant. -/
theorem Kept.moves (h : l.Kept frames sent) (hm : Moves frames l l') : l'.Kept frames sent := by
  cases hm with
  | @send rest n phase pos le =>
    have halive : l.worker ≠ .gone := by rw [phase]; simp
    have hrest : l.worker.rest = rest := by rw [phase]; rfl
    have hgot : l.worker.got = [] := by rw [phase]; rfl
    exact { h with
      worker := Phase.sound_sendFrom _
      up := fun hopen => by
        obtain ⟨cut, hup, hcut⟩ := h.up hopen
        refine ⟨cut, ?_, fun _ => hcut halive⟩
        rw [← hup, hrest]
        simp only [Phase.rest_sendFrom, List.append_assoc, take_drop_split]
      lockstep := fun hn _ => h.lockstep hn halive
      down := fun hn _ => by
        obtain ⟨cut, hdown, hcut⟩ := h.down hn halive
        rw [hgot] at hdown
        exact ⟨cut, by simpa using hdown, hcut⟩ }
  | @wait r r' n phase pos le want more =>
    have halive : l.worker ≠ .gone := by rw [phase]; simp
    have hsound : r.Underway := by have := h.worker; rwa [phase] at this
    have hlen : (l.down.take n).length ≤ r.want := by rw [List.length_take]; omega
    obtain ⟨hunder, hgot⟩ := Reading.recv_more hsound hlen more
    have hrest : l.worker.rest = [] := by rw [phase]; rfl
    exact { h with
      worker := hunder
      up := fun hopen => by
        obtain ⟨cut, hup, hcut⟩ := h.up hopen
        rw [hrest] at hup
        exact ⟨cut, hup, fun _ => hcut halive⟩
      lockstep := fun hn _ => h.lockstep hn halive
      down := fun hn _ => by
        obtain ⟨cut, hdown, hcut⟩ := h.down hn halive
        refine ⟨cut, ?_, hcut⟩
        rw [← hdown, phase]
        simp only [Phase.got, hgot, List.append_assoc, take_drop_split] }
  | @hear r line n phase pos le want done =>
    refine h.start phase fun hn => ?_
    rw [List.mem_append, not_or, List.mem_singleton] at hn
    obtain ⟨hn, hline⟩ := hn
    obtain ⟨f, fs, cut, htold, hcut, hread⟩ := h.next_answer phase pos le want done hn
    obtain ⟨hpay, hrest⟩ := hread.resolve_left fun he => hline he.1.symm
    have hf : l.told[l.heard.length]? = some f := by
      rw [← Nat.add_zero l.heard.length, ← List.getElem?_drop, htold, List.getElem?_cons_zero]
    obtain ⟨hlt, _⟩ := List.getElem?_eq_some_iff.1 hf
    refine ⟨hn, by simp, by simp only [List.length_append, List.length_singleton]; omega, ?_, cut, ?_, hcut⟩
    · rw [List.length_append, List.length_singleton, List.take_add_one, hf, List.map_append, ← h.heard hn, hpay]
      rfl
    · rw [List.length_append, List.length_singleton, ← List.drop_drop, htold, List.drop_one, List.tail_cons]
      exact hrest
  | vanish =>
    exact { h with
      worker := show Phase.Sound .gone from trivial
      up := fun hopen => by
        obtain ⟨cut, hup, _⟩ := h.up hopen
        exact ⟨l.worker.rest ++ cut, hup, fun hne => absurd rfl hne⟩
      lockstep := fun _ hne => absurd rfl hne
      down := fun _ hne => absurd rfl hne }
  | @receive r r' n phase pos le want more =>
    have hsound : r.Underway := by have := h.handler; rwa [phase] at this
    have hlen : (l.up.take n).length ≤ r.want := by rw [List.length_take]; omega
    obtain ⟨hunder, hgot⟩ := Reading.recv_more hsound hlen more
    have hopen : l.handler ≠ .gone := by rw [phase]; simp
    have hrest : l.handler.rest = [] := by rw [phase]; rfl
    exact { h with
      handler := hunder
      up := fun _ => by
        obtain ⟨cut, hup, hcut⟩ := h.up hopen
        refine ⟨cut, ?_, hcut⟩
        rw [← hup, phase]
        simp only [Phase.got, hgot, List.append_assoc, take_drop_split]
      down := fun hn hne => by
        obtain ⟨cut, hdown, hcut⟩ := h.down hn hne
        rw [hrest] at hdown
        exact ⟨cut, hdown, fun _ => hcut hopen⟩ }
  | @answer rest n phase pos le =>
    have hopen : l.handler ≠ .gone := by rw [phase]; simp
    have hrest : l.handler.rest = rest := by rw [phase]; rfl
    have hgot : l.handler.got = [] := by rw [phase]; rfl
    exact { h with
      handler := Phase.sound_sendFrom _
      up := fun _ => by
        obtain ⟨cut, hup, hcut⟩ := h.up hopen
        rw [hgot] at hup
        exact ⟨cut, by simpa using hup, hcut⟩
      down := fun hn hne => by
        obtain ⟨cut, hdown, hcut⟩ := h.down hn hne
        refine ⟨cut, ?_, fun _ => hcut hopen⟩
        rw [← hdown, hrest]
        simp only [Phase.rest_sendFrom, List.append_assoc, take_drop_split] }

theorem Moves.handler (h : Moves frames l l') :
    l'.handler = .gone ↔ l.handler = .gone := by
  cases h with
  | hear phase pos le want done =>
    unfold start
    split <;> rfl
  | receive phase => simp [phase]
  | answer phase => simp [phase]
  | _ => rfl

/-- What the handler reads is the next frame, unless it cuts its header. -/
theorem Kept.next_line (h : l.Kept frames sent) (hfit : ∀ f ∈ frames, f.Fits) {r : Reading} {n : ℕ} {line : List UInt8}
    (hphase : l.handler = .reading r) (hpos : 0 < n) (hle : n ≤ l.up.length) (hwant : n ≤ r.want)
    (hdone : r.recv (l.up.take n) = .inr line) : ∃ f fs cut, (frames.take l.started).drop sent = f :: fs ∧
      (l.worker ≠ .gone → cut = []) ∧
      (line = [] ∧ n < r.want ∨ line = f.payload ∧ l.up.drop n ++ (l.worker.rest ++ cut) = wire fs) := by
  have hsound : r.Underway := by have := h.handler; rwa [hphase] at this
  have hlen : (l.up.take n).length = n := by rw [List.length_take]; omega
  obtain ⟨cut, hup, hcut⟩ := h.up (by rw [hphase]; simp)
  rw [hphase, ← take_drop_split n l.up] at hup
  obtain ⟨f, fs, hnext, hread⟩ := Reading.recv_wire hsound
    (fun f hf => hfit f (List.mem_of_mem_take (List.mem_of_mem_drop hf))) hup (List.ne_nil_of_length_pos (by omega))
    (by omega) hdone
  rw [hlen] at hread
  exact ⟨f, fs, cut, hnext, hcut, hread⟩

/-- A line that is handed over is the next frame's, and the answer goes behind those before. -/
theorem Kept.hands (h : l.Kept frames sent) (hfit : ∀ f ∈ frames, f.Fits) {n : ℕ}
    {line : List UInt8} (hands : l.Hands n line) (hline : line ≠ []) : frames[sent]?.map Frame.payload = some line ∧
      ∀ answer : Frame, answer.Fits → (l.handled n (encode_frame answer)).Kept frames (sent + 1) := by
  have hopen := hands.open
  obtain ⟨r, hphase, hpos, hle, hwant, hdone⟩ := hands
  obtain ⟨f, fs, cut, hnext, hcut, hread⟩ := h.next_line hfit hphase hpos hle hwant hdone
  obtain ⟨rfl, hup⟩ := hread.resolve_left fun he => hline he.1
  have hget : (frames.take l.started)[sent]? = some f := by
    rw [← Nat.add_zero sent, ← List.getElem?_drop, hnext, List.getElem?_cons_zero]
  obtain ⟨hlt, _⟩ := List.getElem?_eq_some_iff.1 hget
  rw [List.length_take, Nat.lt_min] at hlt
  rw [List.getElem?_take_of_lt hlt.1] at hget
  refine ⟨by rw [hget]; rfl, fun answer hanswer => ?_⟩
  have hdec : decode_frame (encode_frame answer) = some answer := (decode_frame_eq_some_iff _ answer).2 ⟨hanswer.2, rfl⟩
  have hrest : l.handler.rest = [] := by rw [hphase]; rfl
  rw [handled, hdec, Option.toList_some]
  refine { h with
    handler := Phase.sound_sendFrom _
    sent_le := hlt.1
    up := fun _ => ⟨cut, ?_, hcut⟩
    told_length := by rw [List.length_append, h.told_length, List.length_singleton]
    told := List.forall_mem_append.2 ⟨h.told, List.forall_mem_singleton.2 hanswer⟩
    heard_le := fun hn => (h.heard_le hn).trans (by simp)
    heard := fun hn => ?_
    down := fun hn hne => ?_ }
  · rw [← List.drop_drop, hnext, List.drop_one, List.tail_cons, Phase.got_sendFrom, List.nil_append]
    exact hup
  · show l.heard = _
    rw [List.take_append_of_le_length (h.heard_le hn)]
    exact h.heard hn
  · obtain ⟨cut', hdown, hcut'⟩ := h.down hn hne
    obtain rfl := hcut' hopen
    refine ⟨[], ?_, fun _ => rfl⟩
    show l.worker.got ++ (l.down ++ ((Phase.sendFrom (encode_frame answer)).rest ++ [])) =
      wire ((l.told ++ [answer]).drop l.heard.length)
    rw [List.drop_append_of_le_length (h.heard_le hn), wire_append, ← hdown, hrest, Phase.rest_sendFrom]
    simp [wire]

/-- The handler may leave its loop at any time. -/
theorem Kept.hungUp (h : l.Kept frames sent) : l.hungUp.Kept frames sent where
  worker := h.worker
  handler := trivial
  sent_le := h.sent_le
  started_le := h.started_le
  up hopen := absurd rfl hopen
  told_length := h.told_length
  told := h.told
  heard_le := h.heard_le
  heard := h.heard
  lockstep := h.lockstep
  down hn hne := by
    obtain ⟨cut, hdown, _⟩ := h.down hn hne
    exact ⟨l.handler.rest ++ cut, hdown, fun hopen => absurd rfl hopen⟩

theorem kept_start (frames : List Frame) : (start frames {}).Kept frames 0 := by
  have hidle : ({} : Link).Kept [] 0 := by
    constructor <;> simp [Phase.Sound, Phase.got, Phase.rest, Reading.Underway, Reading.got, wire]
  cases frames with
  | nil => exact hidle
  | cons f fs =>
    exact { hidle with
      worker := Phase.sound_sendFrom _
      sent_le := Nat.zero_le _
      started_le := by simp [start]
      up := fun _ => ⟨[], by simp [start, wire, Phase.got, Reading.got], fun _ => rfl⟩
      lockstep := fun _ _ => rfl
      down := fun _ _ => ⟨[], by simp [start, wire, Phase.rest], fun _ => rfl⟩ }

/-! ## How it goes on -/

/-- The bytes that are still to be sent count twice, those on the way once. -/
def left (frames : List Frame) (l : Link) : ℕ :=
  2 * (l.worker.rest.length + (wire (frames.drop l.started)).length) + l.up.length + 2 * l.handler.rest.length + l.down.length

theorem left_start (frames : List Frame) (l : Link) (hrest : l.worker.rest = []) :
    (start frames l).left frames = l.left frames := by
  unfold start
  rcases hf : frames[l.started]? with _ | f
  · have hgone : Phase.rest .gone = [] := rfl
    simp [left, hrest, hgone]
  · obtain ⟨hlt, rfl⟩ := List.getElem?_eq_some_iff.1 hf
    have hdrop : wire (frames.drop l.started) = encode_frame frames[l.started] ++ wire (frames.drop (l.started + 1)) := by
      rw [List.drop_eq_getElem_cons hlt, wire, List.flatMap_cons]
      rfl
    simp [left, hrest, hdrop]

/-- The frames that one side waits for are on the way as far as they have been sent. -/
theorem want_le_of_wire {r : Reading} (hr : r.Underway) {bytes : List UInt8} {fs : List Frame} (hfit : ∀ f ∈ fs, f.Fits)
    (hs : r.got ++ bytes = wire fs) (hne : fs ≠ []) : r.want ≤ bytes.length := by
  cases fs with
  | nil => exact absurd rfl hne
  | cons f fs => exact hr.want_le (hfit f List.mem_cons_self).2 (by rw [hs, wire, List.flatMap_cons])

/-- The worker waits for an answer, and the handler for a line: there is a whole one on the way. -/
theorem Kept.moves_reading (h : l.Kept frames sent) (hfit : ∀ f ∈ frames, f.Fits) {r r' : Reading}
    (hworker : l.worker = .reading r) (hhandler : l.handler = .reading r') (hn : [] ∉ l.heard) :
    (r'.want ≤ l.up.length ∧ sent < l.started) ∨ (r.want ≤ l.down.length ∧ l.heard.length < l.told.length) := by
  have hopen : l.handler ≠ .gone := by rw [hhandler]; simp
  have halive : l.worker ≠ .gone := by rw [hworker]; simp
  have hsound : r.Underway := by have := h.worker; rwa [hworker] at this
  have hsound' : r'.Underway := by have := h.handler; rwa [hhandler] at this
  obtain ⟨cut, hup, hcut⟩ := h.up hopen
  obtain rfl := hcut halive
  obtain ⟨cut', hdown, hcut'⟩ := h.down hn halive
  obtain rfl := hcut' hopen
  rw [hhandler, hworker] at hup
  rw [hhandler, hworker] at hdown
  simp only [Phase.got, Phase.rest, List.append_nil] at hup hdown
  rcases Nat.lt_or_ge sent l.started with hlt | hge
  · refine .inl ⟨want_le_of_wire hsound' (fun f hf => hfit f (List.mem_of_mem_take (List.mem_of_mem_drop hf))) hup ?_, hlt⟩
    rw [ne_eq, List.drop_eq_nil_iff, List.length_take]
    have := h.started_le
    omega
  · -- every line is handled, so the last answer is not heard yet
    have hlt : l.heard.length < l.told.length := by
      have := h.lockstep hn halive
      rw [h.told_length]
      omega
    refine .inr ⟨want_le_of_wire hsound (fun f hf => h.told f (List.mem_of_mem_drop hf)) hdown ?_, hlt⟩
    rw [ne_eq, List.drop_eq_nil_iff]
    omega

/-- A call that brings the connection on: no header is cut, and the worker is there until it has
heard all its answers. -/
structure Advances (frames : List Frame) (l l' : Link) : Prop where
  moves : Moves frames l l'
  left : l'.left frames < l.left frames
  handler : l'.handler ≠ .gone
  heard : [] ∉ l'.heard
  worker : l'.worker ≠ .gone ∨ l'.heard.length = frames.length

/-- One of the parties can always go on: it makes a call that advances, or the handler gets a line. -/
theorem Kept.moves_on (h : l.Kept frames sent) (hfit : ∀ f ∈ frames, f.Fits) (hopen : l.handler ≠ .gone)
    (halive : l.worker ≠ .gone) (hn : [] ∉ l.heard) :
    (∃ l', Advances frames l l') ∨ ∃ n line, l.Hands n line ∧ line ≠ [] := by
  rcases hworker : l.worker with rest | r | _
  case gone => exact absurd hworker halive
  case sending =>
    have hne : rest ≠ [] := by have := h.worker; rwa [hworker] at this
    have hpos := List.length_pos_iff.2 hne
    refine .inl ⟨_, .send hworker hpos le_rfl, ?_, hopen, hn, .inl (Phase.sendFrom_ne_gone _)⟩
    have hrest : l.worker.rest = rest := by rw [hworker]; rfl
    simp only [Link.left, hrest, Phase.rest_sendFrom, List.length_append, List.length_take, List.length_drop]
    omega
  case reading =>
    have hsound : r.Underway := by have := h.worker; rwa [hworker] at this
    have hwant := hsound.want_pos
    rcases hhandler : l.handler with rest | r' | _
    case gone => exact absurd hhandler hopen
    case sending =>
      have hne : rest ≠ [] := by have := h.handler; rwa [hhandler] at this
      have hpos := List.length_pos_iff.2 hne
      refine .inl ⟨_, .answer hhandler hpos le_rfl, ?_, Phase.sendFrom_ne_gone _, hn, .inl halive⟩
      have hrest : l.handler.rest = rest := by rw [hhandler]; rfl
      simp only [Link.left, hrest, Phase.rest_sendFrom, List.length_append, List.length_take, List.length_drop]
      omega
    case reading =>
      have hsound' : r'.Underway := by have := h.handler; rwa [hhandler] at this
      have hwant' := hsound'.want_pos
      rcases h.moves_reading hfit hworker hhandler hn with ⟨hle, _⟩ | ⟨hle, hlt⟩
      · -- the handler takes all that it asks for
        rcases hr : r'.recv (l.up.take r'.want) with r'' | line
        · refine .inl ⟨_, .receive hhandler hwant' hle le_rfl hr, ?_, by simp, hn, .inl halive⟩
          have hrest : l.handler.rest = [] := by rw [hhandler]; rfl
          have hrest' : (Phase.reading r'').rest = [] := rfl
          simp only [Link.left, hrest, hrest', List.length_drop]
          omega
        · refine .inr ⟨_, line, ⟨r', hhandler, hwant', hle, le_rfl, hr⟩, ?_⟩
          obtain ⟨f, fs, _, hnext, _, hread⟩ := h.next_line hfit hhandler hwant' hle le_rfl hr
          obtain ⟨rfl, _⟩ := hread.resolve_left fun he => absurd he.2 (lt_irrefl _)
          have hf : f ∈ (frames.take l.started).drop sent := hnext ▸ List.mem_cons_self
          exact (hfit f (List.mem_of_mem_take (List.mem_of_mem_drop hf))).1
      · -- the worker does, and begins its next frame at the end of the answer
        rcases hr : r.recv (l.down.take r.want) with r'' | line
        · refine .inl ⟨_, .wait hworker hwant hle le_rfl hr, ?_, hopen, hn, .inl (by simp)⟩
          have hrest : l.worker.rest = [] := by rw [hworker]; rfl
          have hrest' : (Phase.reading r'').rest = [] := rfl
          simp only [Link.left, hrest, hrest', List.length_drop]
          omega
        · obtain ⟨f, fs, _, htold, _, hread⟩ := h.next_answer hworker hwant hle le_rfl hr hn
          obtain ⟨rfl, _⟩ := hread.resolve_left fun he => absurd he.2 (lt_irrefl _)
          have hf : f ∈ l.told := List.mem_of_mem_drop (htold ▸ List.mem_cons_self)
          have hlock := h.lockstep hn halive
          refine .inl ⟨_, .hear hworker hwant hle le_rfl hr, ?_, ?_, ?_, ?_⟩
          · have hrest : l.worker.rest = [] := by rw [hworker]; rfl
            rw [left_start frames { l with down := l.down.drop r.want, heard := l.heard ++ [f.payload] } hrest]
            simp only [Link.left, List.length_drop]
            omega
          · unfold Link.start
            split <;> exact hopen
          · have hheard : [] ∉ l.heard ++ [f.payload] := by
              rw [List.mem_append, List.mem_singleton, not_or]
              exact ⟨hn, (h.told f hf).1.symm⟩
            unfold Link.start
            split <;> exact hheard
          · unfold Link.start
            dsimp only
            rcases hnext : frames[l.started]? with _ | g
            · have hall := List.getElem?_eq_none_iff.1 hnext
              have hstarted := h.started_le
              exact .inr (by simp only [List.length_append, List.length_singleton]; omega)
            · exact .inl (Phase.sendFrom_ne_gone _)

end Link

end RuntimeRegistry
