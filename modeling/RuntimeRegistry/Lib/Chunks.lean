import Mathlib
/-!
# Streams that arrive in chunks

A reader sees a stream through the chunks it arrives in: a read gives what is left
of the next chunk, up to the length asked for, and nothing only at the end. Every
way to answer reads with at least one element and at most what is asked for is one
of some chunks, so what holds for all chunks holds however the stream is cut.
-/

namespace Lib

/-- The chunks still to come, none of them empty. -/
@[ext] structure Chunked (α : Type) where
  chunks : List (List α)
  nonempty : ∀ c ∈ chunks, c ≠ []

namespace Chunked

variable {α : Type}

/-- The chunks without the first `n` elements. -/
def dropChunks : ℕ → List (List α) → List (List α)
  | _, [] => []
  | n, c :: cs => if n < c.length then c.drop n :: cs else dropChunks (n - c.length) cs

theorem dropChunks_nonempty (n : ℕ) {cs : List (List α)} (h : ∀ c ∈ cs, c ≠ []) : ∀ c ∈ dropChunks n cs, c ≠ [] := by
  induction cs generalizing n with
  | nil => exact h
  | cons c cs ih =>
    rw [List.forall_mem_cons] at h
    rw [dropChunks]
    split_ifs with hlt
    · refine List.forall_mem_cons.2 ⟨?_, h.2⟩
      rw [ne_eq, List.drop_eq_nil_iff]
      omega
    · exact ih _ h.2

/-- The elements still to come. -/
def stream (s : Chunked α) : List α := s.chunks.flatten

/-- The next chunk, empty at the end. -/
def front (s : Chunked α) : List α := s.chunks.headD []

def skip (s : Chunked α) (n : ℕ) : Chunked α := ⟨dropChunks n s.chunks, dropChunks_nonempty n s.nonempty⟩

/-- A read of at most `len` elements. -/
def read (s : Chunked α) (len : ℕ) : List α × Chunked α := (s.front.take len, s.skip (min len s.front.length))

variable {s : Chunked α}

@[simp] theorem stream_skip (s : Chunked α) (n : ℕ) : (s.skip n).stream = s.stream.drop n := by
  have h : ∀ (cs : List (List α)) n, (dropChunks n cs).flatten = cs.flatten.drop n := by
    intro cs
    induction cs with
    | nil => intro n; simp [dropChunks]
    | cons c cs ih =>
      intro n
      rw [dropChunks, List.flatten_cons, List.drop_append]
      split_ifs with hlt
      · have hzero : n - c.length = 0 := by omega
        simp [hzero]
      · rw [ih, List.drop_eq_nil_of_le (not_lt.1 hlt), List.nil_append]
  exact h s.chunks n

@[simp] theorem skip_skip (s : Chunked α) (n m : ℕ) : (s.skip n).skip m = s.skip (n + m) := by
  have h : ∀ (cs : List (List α)) n, dropChunks m (dropChunks n cs) = dropChunks (n + m) cs := by
    intro cs
    induction cs with
    | nil => intro n; simp [dropChunks]
    | cons c cs ih =>
      intro n
      by_cases hlt : n < c.length
      · simp only [dropChunks, if_pos hlt, List.length_drop]
        by_cases hm : n + m < c.length
        · rw [if_pos (by omega), if_pos hm, List.drop_drop]
        · have hsub : m - (c.length - n) = n + m - c.length := by omega
          rw [if_neg (by omega), if_neg hm, hsub]
      · have hsub : n - c.length + m = n + m - c.length := by omega
        simp only [dropChunks, if_neg hlt]
        rw [ih, if_neg (by omega), hsub]
  exact Chunked.ext (h s.chunks n)

@[simp] theorem skip_zero (s : Chunked α) : s.skip 0 = s := by
  apply Chunked.ext
  rcases hs : s.chunks with _ | ⟨c, cs⟩
  · simp [skip, hs, dropChunks]
  · have hc : c ≠ [] := s.nonempty c (by simp [hs])
    simp [skip, hs, dropChunks, List.length_pos_iff.2 hc]

/-- The next chunk is where the stream begins. -/
theorem take_front (s : Chunked α) {n : ℕ} (h : n ≤ s.front.length) : s.stream.take n = s.front.take n := by
  unfold stream front at *
  rcases hs : s.chunks with _ | ⟨c, cs⟩
  · simp
  · rw [hs, List.headD_cons] at h
    rw [List.flatten_cons, List.headD_cons, List.take_append_of_le_length h]

/-- There is a next chunk until the end. -/
theorem front_ne_nil (h : s.stream ≠ []) : s.front ≠ [] := by
  unfold stream front at *
  rcases hs : s.chunks with _ | ⟨c, cs⟩
  · simp [hs] at h
  · exact s.nonempty c (by simp [hs])

end Chunked

end Lib
