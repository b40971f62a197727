import RuntimeRegistry.Lib.Buffers
import RuntimeRegistry.Decoding
/-!
# Reading capability values

The reader of a capability value calls itself once for each entry, and goes on after
a read has failed. It is told here over the memory it reads, with the number of nested
calls it may make. A call passes the four bytes of a count before it makes another one,
or it has read a count of zero, so the bytes that are left bound the nesting.
-/
open Lib Lib.Buffer

namespace RuntimeRegistry

/-! ## The reader over memory -/

abbrev R : Type := Buffer

namespace R

def u8 : Exec UInt8 := fun r =>
  if r.pos + 1 > r.n then some (0, { r with ok := false })
  else some (r.p r.pos, { r with pos := r.pos + 1, touched := [r.pos] ++ r.touched })

def u32 : Exec UInt32 := fun r =>
  if r.pos + 4 > r.n then some (0, { r with ok := false })
  else some
    ((r.p r.pos).toUInt32 ||| (r.p (r.pos + 1)).toUInt32 <<< 8 ||| (r.p (r.pos + 2)).toUInt32 <<< 16 |||
      (r.p (r.pos + 3)).toUInt32 <<< 24,
      { r with pos := r.pos + 4, touched := [r.pos, r.pos + 1, r.pos + 2, r.pos + 3] ++ r.touched })

def u64 : Exec UInt64 := do
  let lo ← u32
  let hi ← u32
  return lo.toUInt64 ||| hi.toUInt64 <<< 32

def f64 : Exec F64 := F64.mk <$> u64

/-- The text of `len` bytes behind the pointer. -/
def text (len : UInt32) : Exec Text := fun r =>
  if !r.ok || r.pos + len.toNat > r.n || len > 0x1000000 then some ([], { r with ok := false })
  else some ((List.range' r.pos len.toNat).map r.p,
    { r with pos := r.pos + len.toNat, touched := List.range' r.pos len.toNat ++ r.touched })

def str : Exec Text := do
  let len ← u32
  text len

/-- `r.ok = false;` -/
def fail : Exec Unit := fun r => some ((), { r with ok := false })

/-- `get_capval` with at most `depth` calls of it under way at once. -/
def get_capval : ℕ → Exec CapabilityValue
  | 0 => fun _ => none
  | depth + 1 => do
    let kind ← Enum.ofByte <$> u8
    let boolean ← (· != 0) <$> u8
    let integer ← UInt64.toInt64 <$> u64
    let real ← f64
    let has_min ← (· != 0) <$> u8
    let has_max ← (· != 0) <$> u8
    let range_min ← f64
    let range_max ← f64
    let string ← str
    let len ← u32
    if len > 4096 then
      fail
      return { kind, boolean, integer, real, string, has_min, has_max, range_min, range_max }
    else
      let structured ← Exec.times (do let k ← str; let v ← get_capval depth; return (k, v)) len.toNat
      return { kind, boolean, integer, real, string, has_min, has_max, range_min, range_max, structured }

end R

/-! ## The reads -/

theorem follows_u8 (r : R) : Follows R.u8 u8 r := by
  unfold Follows R.u8 u8
  by_cases h : r.pos + 1 > r.n
  · refine ⟨{ r with ok := false }, ?_, ?_, .refused r⟩
    · simp [h]
    · simp [h, cursor]
  · refine ⟨_, ?_, ?_, .advance r (k := 1) (l := [r.pos]) (not_lt.1 h) (by simp)⟩
    · simp [h]
    · simp [h, cursor]

theorem follows_u32 (r : R) : Follows R.u32 u32 r := by
  unfold Follows R.u32 u32
  by_cases h : r.pos + 4 > r.n
  · refine ⟨{ r with ok := false }, ?_, ?_, .refused r⟩
    · simp [h]
    · simp [h, cursor]
  · refine ⟨_, ?_, ?_, .advance r (k := 4) (l := [r.pos, r.pos + 1, r.pos + 2, r.pos + 3]) (not_lt.1 h) (by simp)⟩
    · simp [h]
    · simp [h, cursor]

theorem follows_u64 (r : R) : Follows R.u64 u64 r :=
  (follows_u32 r).seq fun _ r' _ => (follows_u32 r').seq fun _ r'' _ => .pure _ r''

theorem follows_f64 (r : R) : Follows R.f64 f64 r := (follows_u64 r).map F64.mk

theorem follows_text (len : UInt32) (r : R) : Follows (R.text len) (take len) r := by
  unfold Follows R.text take
  by_cases h : !r.ok || r.pos + len.toNat > r.n || len > 0x1000000
  · refine ⟨{ r with ok := false }, ?_, ?_, .refused r⟩
    · simp [h]
    · simp [h, cursor]
  · have hfit : r.pos + len.toNat ≤ r.n := by
      simp only [Bool.or_eq_true, decide_eq_true_eq, not_or, not_lt] at h
      exact h.1.2
    have hread : ∀ i ∈ List.range' r.pos len.toNat, r.pos ≤ i ∧ i < r.pos + len.toNat := fun i hi => List.mem_range'_1.1 hi
    refine ⟨_, ?_, ?_, .advance r hfit hread⟩
    · simp only [cursor_ok, cursor_pos, cursor_length, h, if_neg, Bool.false_eq_true, not_false_iff, cursor_slice r hfit]
    · simp [h, cursor]

theorem follows_str (r : R) : Follows R.str str r := (follows_u32 r).seq fun len r' _ => follows_text len r'

theorem follows_fail (r : R) : Follows R.fail Reader.fail r := ⟨{ r with ok := false }, rfl, rfl, .refused r⟩

/-- A count that is not zero was read from four bytes of the buffer. -/
theorem u32_advances {r r' : R} (hcursor : r'.cursor = (u32 r.cursor).2) (hne : (u32 r.cursor).1 ≠ 0) :
    r'.pos = r.pos + 4 ∧ r'.pos ≤ r.n := by
  have hpos : r'.pos = (u32 r.cursor).2.pos := congrArg (·.pos) hcursor
  unfold u32 at hpos hne
  by_cases h : r.cursor.pos + 4 > r.cursor.data.length
  · rw [dif_pos h] at hne
    exact absurd rfl hne
  · rw [dif_neg h] at hpos
    rw [cursor_length] at h
    exact ⟨hpos, hpos ▸ not_lt.1 h⟩

/-! ## The value -/

/-- Where the bytes that are left allow for fewer nested calls than may be made, the
call ends and reads what the reader of the same depth or another sufficient one reads. -/
theorem follows_capval {depth depth' : ℕ} {r : R} (h : (r.n - r.pos) / 4 < depth) (h' : (r.n - r.pos) / 4 < depth') :
    Follows (R.get_capval depth) (get_capval_to depth') r := by
  induction depth generalizing depth' r with
  | zero => exact absurd h (Nat.not_lt_zero _)
  | succ depth ih =>
    obtain ⟨depth', rfl⟩ : ∃ d, depth' = d + 1 := ⟨depth' - 1, by omega⟩
    unfold R.get_capval get_capval_to
    refine ((follows_u8 r).map _).seq fun kind r₁ h₁ => ?_
    refine ((follows_u8 r₁).map _).seq fun boolean r₂ h₂ => ?_
    refine ((follows_u64 r₂).map _).seq fun integer r₃ h₃ => ?_
    refine (follows_f64 r₃).seq fun real r₄ h₄ => ?_
    refine ((follows_u8 r₄).map _).seq fun has_min r₅ h₅ => ?_
    refine ((follows_u8 r₅).map _).seq fun has_max r₆ h₆ => ?_
    refine (follows_f64 r₆).seq fun range_min r₇ h₇ => ?_
    refine (follows_f64 r₇).seq fun range_max r₈ h₈ => ?_
    refine (follows_str r₈).seq fun string r₉ h₉ => ?_
    have hpass : Passes r r₉ :=
      h₁.trans <| h₂.trans <| h₃.trans <| h₄.trans <| h₅.trans <| h₆.trans <| h₇.trans <| h₈.trans h₉
    refine (follows_u32 r₉).bind fun r' hcursor hlen => ?_
    split_ifs with hmax
    · exact (follows_fail r').seq fun _ r'' _ => .pure _ r''
    · refine Follows.seq ?_ fun structured r'' _ => .pure _ r''
      by_cases hzero : (u32 r₉.cursor).1 = 0
      · rw [hzero]
        exact .pure [] r'
      -- An entry starts behind the count, with four bytes fewer than the value had.
      · obtain ⟨hpos, hle⟩ := u32_advances hcursor hzero
        refine Follows.times (fun r'' hround => ?_) _
        refine (follows_str r'').seq fun k s hs => ?_
        have hstart := hround.trans hs
        have hsize : s.n = r.n := hstart.n.trans (hlen.n.trans hpass.n)
        have hbegin := hpass.forward
        have hforward := hstart.forward
        rw [hpass.n] at hle
        have hentry : Follows (R.get_capval depth) (get_capval_to depth') s := ih (by rw [hsize]; omega) (by rw [hsize]; omega)
        exact hentry.seq fun v s' _ => .pure (k, v) s'

theorem follows_get_capval {depth : ℕ} {r : R} (h : (r.n - r.pos) / 4 < depth) :
    Follows (R.get_capval depth) get_capval r := by
  have hread : get_capval r.cursor = get_capval_to ((r.n - r.pos) / 4 + 1) r.cursor := by
    unfold get_capval
    rw [cursor_length, cursor_pos]
  obtain ⟨r', hrun, hcursor, hpass⟩ := follows_capval h (Nat.lt_succ_self _)
  rw [← hread] at hrun hcursor
  exact ⟨r', hrun, hcursor, hpass⟩

/-- Every depth that the bytes which are left allow for reads the same value. -/
theorem get_capval_to_eq {depth : ℕ} {c : Cursor} (h : (c.data.length - c.pos) / 4 < depth) :
    get_capval_to depth c = get_capval c := by
  obtain ⟨r, rfl⟩ := cursor_surjective c
  rw [cursor_length, cursor_pos] at h
  obtain ⟨r₁, hrun₁, hcursor₁, -⟩ := follows_capval (r := r) (Nat.lt_succ_self _) h
  obtain ⟨r₂, hrun₂, hcursor₂, -⟩ := follows_get_capval (r := r) (Nat.lt_succ_self _)
  rw [hrun₁, Option.some.injEq, Prod.mk.injEq] at hrun₂
  refine Prod.ext hrun₂.1 ?_
  rw [← hcursor₁, ← hcursor₂, hrun₂.2]

/-- From any position of any buffer, whether a read has failed before or not, a call
of `get_capval` ends with one call and one more for every four of the remaining bytes
under way at once, and with any more that it may make. It leaves the position where
it was, or further on and within the buffer, has read only bytes of the buffer that it
passed, and gives the value that the decoder of images reads there. -/
theorem get_capval_bounded (r : R) (more : ℕ) :
    ∃ v r', R.get_capval (1 + (r.n - r.pos) / 4 + more) r = some (v, r') ∧
      r.pos ≤ r'.pos ∧ r'.pos ≤ max r.pos r.n ∧
      (∃ l, r'.touched = l ++ r.touched ∧ ∀ i ∈ l, r.pos ≤ i ∧ i < r'.pos ∧ i < r.n) ∧
      get_capval r.cursor = (v, r'.cursor) := by
  have hdepth : (r.n - r.pos) / 4 < 1 + (r.n - r.pos) / 4 + more := by omega
  obtain ⟨r', hrun, hcursor, hpass⟩ := follows_get_capval hdepth
  refine ⟨_, r', hrun, hpass.forward, hpass.within, hpass.reads, ?_⟩
  rw [hcursor]

end RuntimeRegistry
