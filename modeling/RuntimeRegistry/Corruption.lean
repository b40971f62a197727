import RuntimeRegistry.Frames
import RuntimeRegistry.LoadFailures
/-!
# Small corruption

A frame and an image are sealed words: some bytes, a body, the checksum of the body
and what follows from it. No two sealed words differ in one byte, or in a run of at
most four bytes of the body, so a word changed in that way is not accepted.
-/

namespace RuntimeRegistry

/-- One byte is replaced by another. -/
def OneByte (data data' : List UInt8) : Prop :=
  ∃ pre x y post, data = pre ++ x :: post ∧ data' = pre ++ y :: post ∧ x ≠ y

/-- A run of at most four bytes behind the first `head` and before the last `tail`
bytes is replaced by another. -/
def ShortRun (head tail : ℕ) (data data' : List UInt8) : Prop :=
  ∃ pre xs ys post, data = pre ++ (xs ++ post) ∧ data' = pre ++ (ys ++ post) ∧ xs.length = ys.length ∧ xs.length ≤ 4 ∧
    xs ≠ ys ∧ head ≤ pre.length ∧ tail ≤ post.length

/-- One byte anywhere is replaced, or a short run within the bytes that the checksum
covers. -/
def Corrupted (head tail : ℕ) (data data' : List UInt8) : Prop := OneByte data data' ∨ ShortRun head tail data data'

variable {data data' pre a b : List UInt8}

theorem OneByte.shortRun (h : OneByte data data') : ShortRun 0 0 data data' := by
  obtain ⟨pre, x, y, post, rfl, rfl, hne⟩ := h
  exact ⟨pre, [x], [y], post, rfl, rfl, rfl, by simp, by simpa using hne, Nat.zero_le _, Nat.zero_le _⟩

theorem Corrupted.length_eq {head tail : ℕ} (h : Corrupted head tail data data') : data'.length = data.length := by
  rcases h with ⟨pre, x, y, post, rfl, rfl, _⟩ | ⟨pre, xs, ys, post, rfl, rfl, hlen, _⟩
  · simp
  · simp [hlen]

theorem ShortRun.ne {head tail : ℕ} (h : ShortRun head tail data data') : data ≠ data' := by
  obtain ⟨pre, xs, ys, post, rfl, rfl, _, _, hne, _⟩ := h
  intro heq
  exact hne (List.append_cancel_right (List.append_cancel_left heq))

/-! ## Sealed words -/

/-- A body behind `pre`, sealed by its checksum and by what `digest` makes of it. -/
def sealWord (pre : List UInt8) (digest : List UInt8 → List UInt8) (body : List UInt8) : List UInt8 :=
  pre ++ (body ++ (put_u32 (crc32 body) ++ digest body))

theorem put_u32_injective {v w : UInt32} (h : put_u32 v = put_u32 w) : v = w := by
  rw [← get_u32_put v, h, get_u32_put]

/-- Two sealed words with a short run of the body replaced are the same. -/
theorem sealWord_run {digest : List UInt8 → List UInt8} {n : ℕ} (hn : ∀ body, (digest body).length = n) :
    ¬ ShortRun pre.length (4 + n) (sealWord pre digest a) (sealWord pre digest b) := by
  rintro ⟨p, xs, ys, q, hx, hy, hlen, hshort, hne, hhead, htail⟩
  -- the run lies behind `pre`
  have hcut : ∀ {body zs : List UInt8}, sealWord pre digest body = p ++ (zs ++ q) →
      p = pre ++ p.drop pre.length ∧ body ++ (put_u32 (crc32 body) ++ digest body) = p.drop pre.length ++ (zs ++ q) := by
    intro body zs h
    rcases List.append_eq_append_iff.1 h with ⟨p₁, rfl, hp⟩ | ⟨p₁, hpre, hp⟩
    · simpa using hp
    · obtain rfl : p₁ = [] := by
        rw [hpre, List.length_append] at hhead
        exact List.length_eq_zero_iff.1 (by omega)
      rw [List.append_nil] at hpre
      subst hpre
      simpa using hp.symm
  -- and before the checksum
  have htrail : ∀ {body zs : List UInt8}, body ++ (put_u32 (crc32 body) ++ digest body) = p.drop pre.length ++ (zs ++ q) →
      ∃ q₁, body = p.drop pre.length ++ zs ++ q₁ ∧ q = q₁ ++ (put_u32 (crc32 body) ++ digest body) := by
    intro body zs h
    rw [← List.append_assoc (p.drop pre.length)] at h
    rcases List.append_eq_append_iff.1 h with ⟨q₁, hbody, hq⟩ | ⟨q₁, hbody, hq⟩
    · obtain rfl : q₁ = [] := by
        have hsum := congrArg List.length hq
        simp only [List.length_append, put_u32_length, hn] at hsum
        exact List.length_eq_zero_iff.1 (by omega)
      exact ⟨[], by simpa using hbody.symm, by simpa using hq.symm⟩
    · exact ⟨q₁, hbody, hq⟩
  obtain ⟨-, hx⟩ := hcut hx
  obtain ⟨-, hy⟩ := hcut hy
  obtain ⟨q₁, ha, hqa⟩ := htrail hx
  obtain ⟨q₂, hb, hqb⟩ := htrail hy
  have hsame : q₁ = q₂ ∧ put_u32 (crc32 a) ++ digest a = put_u32 (crc32 b) ++ digest b := by
    refine List.append_inj' (hqa.symm.trans hqb) ?_
    simp [hn]
  obtain ⟨rfl, hcheck⟩ := hsame
  have hcrc := put_u32_injective (List.append_inj_left hcheck rfl)
  rw [ha, hb] at hcrc
  exact hne (crc32_burst hlen hshort hcrc)

/-- Two sealed words with one byte replaced are the same. -/
theorem sealWord_byte {digest : List UInt8 → List UInt8} {n : ℕ} (hn : ∀ body, (digest body).length = n)
    (hlen : a.length = b.length) : ¬ OneByte (sealWord pre digest a) (sealWord pre digest b) := by
  intro h
  have hab : a ≠ b := by
    rintro rfl
    exact h.shortRun.ne rfl
  obtain ⟨p, x, y, q, hx, hy, hne⟩ := h
  refine sealWord_run hn (a := a) (b := b) ⟨p, [x], [y], q, hx, hy, rfl, by simp, by simpa using hne, ?_, ?_⟩
  -- before `pre` ends the words are the same, and so are the bodies behind it
  · by_contra hshort
    have hdrop : ∀ {body : List UInt8} {z : UInt8}, sealWord pre digest body = p ++ z :: q →
        body ++ (put_u32 (crc32 body) ++ digest body) = q.drop (pre.length - (p.length + 1)) := by
      intro body z hw
      have hd := congrArg (List.drop pre.length) hw
      rw [sealWord, List.drop_left] at hd
      rw [hd]
      have hsplit : pre.length = p.length + 1 + (pre.length - (p.length + 1)) := by omega
      rw [hsplit, ← List.drop_drop]
      simp
    have hboth := (hdrop hx).trans (hdrop hy).symm
    exact hab (List.append_inj hboth hlen).1
  -- behind the body the words are the same, and so are the bodies before it
  · by_contra hshort
    have hsum : ∀ {body : List UInt8} {z : UInt8}, sealWord pre digest body = p ++ z :: q →
        pre.length + body.length ≤ p.length := by
      intro body z hw
      have hl := congrArg List.length hw
      simp only [sealWord, List.length_append, List.length_cons, put_u32_length, hn] at hl
      omega
    have htake : ∀ {body : List UInt8} {z : UInt8}, sealWord pre digest body = p ++ z :: q →
        pre ++ body = p.take (pre.length + body.length) := by
      intro body z hw
      have ht := congrArg (List.take (pre.length + body.length)) hw
      rw [sealWord, ← List.append_assoc, ← List.length_append, List.take_left, List.length_append,
        List.take_append_of_le_length (hsum hw)] at ht
      exact ht
    have hboth := htake hx
    rw [hlen, ← htake hy] at hboth
    exact hab (List.append_cancel_left hboth)

theorem sealWord_corrupted {digest : List UInt8 → List UInt8} {n : ℕ} (hn : ∀ body, (digest body).length = n)
    (h : Corrupted pre.length (4 + n) (sealWord pre digest a) (sealWord pre digest b)) : False := by
  have hlen : a.length = b.length := by
    have hl := h.length_eq
    simp only [sealWord, List.length_append, put_u32_length, hn] at hl
    omega
  rcases h with h | h
  · exact sealWord_byte hn hlen h
  · exact sealWord_run hn h

/-! ## Frames -/

theorem encode_frame_sealWord {f : Frame} (h : f.payload.length ≤ kMaxPayload.toNat) :
    encode_frame f = sealWord (put_u32 kFrameMagic) (fun _ => []) (covered f) := by
  rw [encode_frame_eq h, sealWord, List.append_nil, List.append_assoc]

theorem decode_frame_corrupted {f : Frame} (h : f.payload.length ≤ kMaxPayload.toNat)
    (hc : Corrupted 4 4 (encode_frame f) data') : decode_frame data' = none := by
  rcases hd : decode_frame data' with _ | f'
  · rfl
  · obtain ⟨h', rfl⟩ := (decode_frame_eq_some_iff data' f').1 hd
    rw [encode_frame_sealWord h, encode_frame_sealWord h'] at hc
    exact (sealWord_corrupted (fun _ => rfl) hc).elim

/-! ## Images -/

namespace Registry

theorem serialize_sealWord (r : Registry) : r.serialize = sealWord [] sha256 r.put_content := by
  rw [serialize, withTrailer, sealWord, List.nil_append, List.append_assoc]

/-- The reader of an image and the one of a frame agree on a word. -/
theorem u32_at {pos : ℕ} (h : pos + 4 ≤ data.length) : (u32 { data := data, pos := pos }).1 = get_u32 (data.drop pos) := by
  have hnot : ¬ pos + 4 > data.length := by omega
  rw [u32, dif_neg hnot]
  have hget : ∀ i (hi : i < data.length), pos ≤ i → data[i] = (data.drop pos).getD (i - pos) 0 := by
    intro i hi hle
    have hadd : pos + (i - pos) = i := by omega
    rw [List.getD_eq_getElem?_getD, List.getElem?_drop, hadd, List.getElem?_eq_getElem hi]
    rfl
  simp only [get_u32]
  rw [hget pos (by omega) le_rfl, hget (pos + 1) (by omega) (by omega), hget (pos + 2) (by omega) (by omega),
    hget (pos + 3) (by omega) (by omega)]
  simp

/-- What passes the checks of the trailer is a sealed word. -/
theorem Sealed.eq (h : Sealed data) : data = sealWord [] sha256 (sealedContent data) := by
  obtain ⟨hlen, hcrc, hsha⟩ := h
  rw [u32_at (by omega)] at hcrc
  have hword : put_u32 (crc32 (sealedContent data)) = (data.drop (data.length - 36)).take 4 := by
    rw [hcrc]
    have hfour : ((data.drop (data.length - 36)).take 4).length = 4 := by
      rw [List.length_take, List.length_drop]
      omega
    obtain ⟨a, b, c, d, hbytes⟩ := four_bytes hfour
    have hsplit : data.drop (data.length - 36) = a :: b :: c :: d :: (data.drop (data.length - 36)).drop 4 := by
      conv_lhs => rw [← List.take_append_drop 4 (data.drop (data.length - 36)), hbytes]
      rfl
    rw [hbytes, hsplit, put_get_u32]
  have hrest : (data.drop (data.length - 36)).drop 4 = sha256 (sealedContent data) := by
    rw [hsha, List.drop_drop, List.take_of_length_le]
    rw [List.length_drop]
    omega
  rw [sealWord, List.nil_append, hword, ← hrest, List.take_append_drop, sealedContent, List.take_append_drop]

/-- An image that does not pass them is refused before anything is written. -/
theorem load_from_unsealed (h : ¬ Sealed data) (s : Registry) :
    ∃ message, s.load_from data = (.error ⟨.MALFORMED, message⟩, s) := by
  unfold load_from
  dsimp only
  split_ifs with hlen hcrc hsha
  · exact ⟨_, rfl⟩
  · exact ⟨_, rfl⟩
  · exact ⟨_, rfl⟩
  · exact absurd ⟨not_lt.1 hlen, not_not.1 hcrc, not_not.1 hsha⟩ h

theorem load_from_corrupted {r : Registry} (hc : Corrupted 0 36 r.serialize data') (s : Registry) :
    ∃ message, s.load_from data' = (.error ⟨.MALFORMED, message⟩, s) := by
  refine load_from_unsealed (fun hs => ?_) s
  rw [serialize_sealWord, hs.eq] at hc
  exact sealWord_corrupted sha256_length hc

end Registry

/-- A frame or an image with one byte replaced, or with a run of at most four of the
bytes that its checksum covers, is refused, and loading it changes nothing. -/
theorem small_corruption_caught :
    (∀ (f : Frame) (data : List UInt8), f.payload.length ≤ kMaxPayload.toNat → Corrupted 4 4 (encode_frame f) data →
      decode_frame data = none) ∧
    ∀ (r s : Registry) (data : List UInt8), Corrupted 0 36 r.serialize data →
      ∃ message, s.load_from data = (.error ⟨.MALFORMED, message⟩, s) :=
  ⟨fun _ _ h hc => decode_frame_corrupted h hc, fun _ s _ hc => Registry.load_from_corrupted hc s⟩

theorem Registry.serialize_head (r : Registry) : ∃ rest, r.serialize = 0x31 :: rest := ⟨_, rfl⟩

def Sample.greeting : List UInt8 := encode_frame ⟨.HELLO, text "HELLO,1001"⟩

/-- A greeting with another worker id, and the image of the sample with another first byte. -/
theorem small_corruption_caught_greeting :
    decode_frame (Sample.greeting.take 16 ++ (text "2346" ++ Sample.greeting.drop 20)) = none ∧
    ∃ message, Registry.fresh.load_from (Sample.registry.serialize.set 0 0) = (.error ⟨.MALFORMED, message⟩, Registry.fresh) := by
  have hrun : ShortRun 4 4 Sample.greeting (Sample.greeting.take 16 ++ (text "2346" ++ Sample.greeting.drop 20)) :=
    ⟨Sample.greeting.take 16, text "1001", text "2346", Sample.greeting.drop 20, by decide +kernel, rfl, rfl, by decide,
      by decide, by decide +kernel, by decide +kernel⟩
  have hbyte : OneByte Sample.registry.serialize (Sample.registry.serialize.set 0 0) := by
    obtain ⟨rest, hrest⟩ := Registry.serialize_head Sample.registry
    rw [hrest]
    exact ⟨[], _, 0, rest, rfl, rfl, by decide⟩
  exact ⟨small_corruption_caught.1 ⟨.HELLO, text "HELLO,1001"⟩ _ (by decide) (.inr hrun),
    small_corruption_caught.2 _ _ _ (.inl hbyte)⟩

end RuntimeRegistry
