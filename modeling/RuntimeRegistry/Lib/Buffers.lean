import RuntimeRegistry.Lib.Reader
/-!
# Buffers in memory

A reader as the machine runs it: a pointer, the size of the buffer, a position, a
flag, and a log of the places that were read through the pointer. A program that
calls itself more deeply than it may ends in `none`. `Follows` says that a program
ends, does what a reader of the bytes does, and reads only bytes it passes.
-/

namespace Lib

/-- A buffer of `n` bytes behind a pointer, and the state of reading it. -/
structure Buffer where
  p : ℕ → UInt8
  n : ℕ
  pos : ℕ := 0
  ok : Bool := true
  touched : List ℕ := []

/-- A program over a buffer. -/
abbrev Exec (α : Type) : Type := StateT Buffer Option α

/-- `for (i = 0; i < n; ++i) out.push_back(f())` -/
def Exec.times {α : Type} (f : Exec α) : ℕ → Exec (List α)
  | 0 => pure []
  | n + 1 => do let a ← f; let as ← Exec.times f n; return a :: as

namespace Buffer

/-- What a reader sees of the buffer. -/
def cursor (r : Buffer) : Cursor := ⟨(List.range r.n).map r.p, r.pos, r.ok⟩

@[simp] theorem cursor_pos (r : Buffer) : r.cursor.pos = r.pos := rfl

@[simp] theorem cursor_ok (r : Buffer) : r.cursor.ok = r.ok := rfl

@[simp] theorem cursor_length (r : Buffer) : r.cursor.data.length = r.n := by simp [cursor]

@[simp] theorem cursor_getElem (r : Buffer) (i : ℕ) (h : i < r.cursor.data.length) : r.cursor.data[i] = r.p i := by
  simp [cursor]

/-- The bytes between two places of the buffer. -/
theorem cursor_slice (r : Buffer) {len : ℕ} (h : r.pos + len ≤ r.n) :
    (r.cursor.data.drop r.pos).take len = (List.range' r.pos len).map r.p := by
  apply List.ext_getElem
  · simp only [List.length_take, List.length_drop, cursor_length, List.length_map, List.length_range']
    omega
  · intro i h₁ h₂
    simp

/-- Some buffer shows a given cursor. -/
theorem cursor_surjective (c : Cursor) : ∃ r : Buffer, r.cursor = c := by
  refine ⟨{ p := fun i => c.data.getD i 0, n := c.data.length, pos := c.pos, ok := c.ok }, ?_⟩
  have hdata : (List.range c.data.length).map (fun i => c.data.getD i 0) = c.data := by
    apply List.ext_getElem
    · simp
    · intro i h₁ h₂
      simp [h₂]
  unfold cursor
  rw [hdata]

/-! ## What is read on the way -/

/-- The way from one state to a later one reads only bytes of the buffer that lie
between the two positions. -/
structure Passes (r r' : Buffer) : Prop where
  p : r'.p = r.p
  n : r'.n = r.n
  forward : r.pos ≤ r'.pos
  within : r'.pos ≤ max r.pos r.n
  reads : ∃ l, r'.touched = l ++ r.touched ∧ ∀ i ∈ l, r.pos ≤ i ∧ i < r'.pos ∧ i < r.n

variable {r r' r'' : Buffer}

theorem Passes.refl (r : Buffer) : Passes r r := ⟨rfl, rfl, le_rfl, le_max_left _ _, [], rfl, fun _ h => nomatch h⟩

theorem Passes.trans (h : Passes r r') (h' : Passes r' r'') : Passes r r'' := by
  obtain ⟨l, hl, hin⟩ := h.reads
  obtain ⟨l', hl', hin'⟩ := h'.reads
  have hforward := h.forward
  have hforward' := h'.forward
  have hwithin := h.within
  have hwithin' := h'.within
  have hn := h.n
  refine ⟨h'.p.trans h.p, h'.n.trans hn, hforward.trans hforward', ?_, l' ++ l, ?_, ?_⟩
  · rw [hn] at hwithin'
    omega
  · rw [hl', hl, List.append_assoc]
  · intro i hi
    rcases List.mem_append.1 hi with hi | hi
    · obtain ⟨h₁, h₂, h₃⟩ := hin' i hi
      exact ⟨hforward.trans h₁, h₂, hn ▸ h₃⟩
    · obtain ⟨h₁, h₂, h₃⟩ := hin i hi
      exact ⟨h₁, h₂.trans_le hforward', h₃⟩

/-- A read that does not fit. -/
theorem Passes.refused (r : Buffer) : Passes r { r with ok := false } :=
  ⟨rfl, rfl, le_rfl, le_max_left _ _, [], rfl, fun _ h => nomatch h⟩

/-- A read of the next `k` bytes of the buffer, in whatever order. -/
theorem Passes.advance (r : Buffer) {k : ℕ} {l : List ℕ} (hfit : r.pos + k ≤ r.n)
    (hl : ∀ i ∈ l, r.pos ≤ i ∧ i < r.pos + k) : Passes r { r with pos := r.pos + k, touched := l ++ r.touched } :=
  ⟨rfl, rfl, Nat.le_add_right _ _, hfit.trans (le_max_right _ _), l, rfl,
    fun i hi => ⟨(hl i hi).1, (hl i hi).2, (hl i hi).2.trans_le hfit⟩⟩

end Buffer

/-! ## Programs that do what a reader does -/

open Buffer

variable {α β : Type} {f : Exec α} {g : Reader α} {k : α → Exec β} {h : α → Reader β} {r : Buffer}

/-- From `r`, the program ends with the value and the cursor of the reader. -/
def Follows (f : Exec α) (g : Reader α) (r : Buffer) : Prop :=
  ∃ r', f r = some ((g r.cursor).1, r') ∧ r'.cursor = (g r.cursor).2 ∧ Passes r r'

namespace Follows

theorem pure (a : α) (r : Buffer) : Follows (pure a) (pure a) r := ⟨r, rfl, rfl, .refl r⟩

/-- What follows a read may rest on where it ended. -/
theorem bind (hf : Follows f g r)
    (hk : ∀ r', r'.cursor = (g r.cursor).2 → Passes r r' → Follows (k (g r.cursor).1) (h (g r.cursor).1) r') :
    Follows (f >>= k) (g >>= h) r := by
  obtain ⟨r', hrun, hcursor, hpass⟩ := hf
  obtain ⟨r'', hrun', hcursor', hpass'⟩ := hk r' hcursor hpass
  rw [hcursor] at hrun' hcursor'
  have hbind : (f >>= k) r = (f r).bind fun x => k x.1 x.2 := rfl
  refine ⟨r'', ?_, hcursor', hpass.trans hpass'⟩
  rw [hbind, hrun]
  exact hrun'

/-- A read whose value and end do not matter for what follows. -/
theorem seq (hf : Follows f g r) (hk : ∀ a r', Passes r r' → Follows (k a) (h a) r') : Follows (f >>= k) (g >>= h) r :=
  hf.bind fun r' _ hpass => hk _ r' hpass

theorem map (hf : Follows f g r) (e : α → β) : Follows (e <$> f) (g >>= fun a => Pure.pure (e a)) r := by
  obtain ⟨r', hrun, hcursor, hpass⟩ := hf
  have hmap : (e <$> f) r = (f r).bind fun x => some (e x.1, x.2) := rfl
  refine ⟨r', ?_, hcursor, hpass⟩
  rw [hmap, hrun]
  rfl

/-- A loop whose rounds all follow the reader, from wherever they start. -/
theorem times (hf : ∀ r', Passes r r' → Follows f g r') (n : ℕ) : Follows (f.times n) (Reader.times g n) r := by
  induction n generalizing r with
  | zero => exact .pure [] r
  | succ n ih =>
    refine (hf r (.refl r)).seq fun a r₁ h₁ => ?_
    exact (ih fun r₂ h₂ => hf r₂ (h₁.trans h₂)).seq fun as r₂ _ => .pure (a :: as) r₂

end Follows

end Lib
