import Mathlib
/-!
# Readers over a buffer

A reader takes a cursor and always gives a value; a read that does not fit
clears `ok`, which nothing sets again. `Reads` says that a reader takes exactly
the given bytes for a value, `Fails` that it cannot, `ReadsOrFails` that it does
one or the other, `Yields` what holds of every value read with `ok` set, and `Moves`
what every reader does with the cursor. Each has a rule for each way readers are
put together.
-/

namespace Lib

/-- A position in a buffer. -/
structure Cursor where
  data : List UInt8
  pos : Nat := 0
  ok : Bool := true

def Reader (α : Type) : Type := Cursor → α × Cursor

namespace Reader

variable {α β : Type}

instance : Monad Reader where
  pure a := fun c => (a, c)
  bind g f := fun c => f (g c).1 (g c).2

@[simp] theorem pure_run (a : α) (c : Cursor) : (pure a : Reader α) c = (a, c) := rfl

@[simp] theorem bind_run (g : Reader α) (f : α → Reader β) (c : Cursor) : (g >>= f) c = f (g c).1 (g c).2 := rfl

/-- `ok = false` -/
def fail : Reader Unit := fun c => ((), { c with ok := false })

/-- `for (i = 0; i < n && ok; ++i) out.push_back(g())` -/
def many (g : Reader α) : Nat → Reader (List α)
  | 0 => pure []
  | n + 1 => fun c => if c.ok then (do let a ← g; let as ← many g n; return a :: as : Reader (List α)) c else ([], c)

/-- `for (i = 0; i < n; ++i) out.push_back(g())` -/
def times (g : Reader α) : Nat → Reader (List α)
  | 0 => pure []
  | n + 1 => do let a ← g; let as ← times g n; return a :: as

/-! ## Reading the bytes of a value -/

/-- Wherever `bytes` stand in the buffer, `g` reads them and nothing else, as `a`. -/
def Reads (g : Reader α) (bytes : List UInt8) (a : α) : Prop :=
  ∀ pre post, g ⟨pre ++ (bytes ++ post), pre.length, true⟩ =
    (a, ⟨pre ++ (bytes ++ post), pre.length + bytes.length, true⟩)

/-- Wherever `bytes` stand in the buffer, `g` fails on them. -/
def Fails (g : Reader α) (bytes : List UInt8) : Prop :=
  ∀ pre post, (g ⟨pre ++ (bytes ++ post), pre.length, true⟩).2.ok = false

section
variable {g : Reader α} {f : α → Reader β} {a : α} {b : β} {bytes rest : List UInt8}

theorem Reads.pure (a : α) : Reads (pure a) [] a := fun _ _ => rfl

theorem Reads.bind (hg : Reads g bytes a) (hf : Reads (f a) rest b) : Reads (g >>= f) (bytes ++ rest) b := by
  intro pre post
  have h₁ := hg pre (rest ++ post)
  have h₂ := hf (pre ++ bytes) post
  simp only [List.append_assoc, List.length_append] at h₁ h₂ ⊢
  rw [bind_run, h₁]
  simp only [h₂, Nat.add_assoc]

/-- The last read of a record. -/
theorem Reads.map (hg : Reads g bytes a) (k : α → β) : Reads (g >>= fun a => Pure.pure (k a)) bytes (k a) := by
  simpa using hg.bind (f := fun a => Pure.pure (k a)) (.pure (k a))

theorem Reads.times {put : α → List UInt8} {as : List α} (h : ∀ a ∈ as, Reads g (put a) a) :
    Reads (times g as.length) (as.flatMap put) as := by
  induction as with
  | nil => exact .pure []
  | cons a as ih =>
    rw [List.forall_mem_cons] at h
    exact h.1.bind ((ih h.2).map (a :: ·))

theorem Reads.many {put : α → List UInt8} {as : List α} (h : ∀ a ∈ as, Reads g (put a) a) :
    Reads (many g as.length) (as.flatMap put) as := by
  induction as with
  | nil => exact .pure []
  | cons a as ih =>
    rw [List.forall_mem_cons] at h
    intro pre post
    exact (h.1.bind ((ih h.2).map (a :: ·))) pre post

theorem Reads.run (hg : Reads g bytes a) : g ⟨bytes, 0, true⟩ = (a, ⟨bytes, bytes.length, true⟩) := by
  simpa using hg [] []

theorem Reads.bind_fails (hg : Reads g bytes a) (hf : Fails (f a) rest) : Fails (g >>= f) (bytes ++ rest) := by
  intro pre post
  have h₁ := hg pre (rest ++ post)
  have h₂ := hf (pre ++ bytes) post
  simp only [List.append_assoc, List.length_append] at h₁ h₂ ⊢
  rw [bind_run, h₁]
  exact h₂

end

/-- A reader finds one value and one end: what it reads from a buffer is no
beginning of anything else it reads. -/
theorem Reads.unique {g : Reader α} {a a' : α} {bytes bytes' rest rest' : List UInt8} (h : Reads g bytes a)
    (h' : Reads g bytes' a') (heq : bytes ++ rest = bytes' ++ rest') : a = a' ∧ rest = rest' := by
  have h₁ := h [] rest
  have h₂ := h' [] rest'
  simp only [List.nil_append, List.length_nil, Nat.zero_add] at h₁ h₂
  rw [heq, h₂, Prod.mk.injEq, Cursor.mk.injEq] at h₁
  obtain ⟨rfl, -, hlen, -⟩ := h₁
  exact ⟨rfl, (List.append_inj heq hlen.symm).2⟩

/-! ## Moving the cursor -/

/-- What a reader does with the cursor, whatever it reads: the buffer stays, a
failure stays, and the position moves forward within the buffer. -/
class Moves (g : Reader α) : Prop where
  data : ∀ c, (g c).2.data = c.data
  ok : ∀ c, (g c).2.ok = true → c.ok = true
  forward : ∀ c, c.pos ≤ (g c).2.pos
  within : ∀ c, c.pos ≤ c.data.length → (g c).2.pos ≤ c.data.length

instance (a : α) : Moves (pure a) := ⟨fun _ => rfl, fun _ h => h, fun _ => le_rfl, fun _ h => h⟩

instance (g : Reader α) (f : α → Reader β) [hg : Moves g] [hf : ∀ a, Moves (f a)] : Moves (g >>= f) where
  data c := by rw [bind_run, (hf _).data, hg.data]
  ok c h := hg.ok c ((hf _).ok _ h)
  forward c := (hg.forward c).trans ((hf _).forward _)
  within c h := by
    have := (hf (g c).1).within (g c).2
    rw [hg.data] at this
    exact this (hg.within c h)

instance : Moves fail := ⟨fun _ => rfl, fun _ h => (nomatch h), fun _ => le_rfl, fun _ h => h⟩

instance (p : Prop) [Decidable p] (g g' : Reader α) [hg : Moves g] [hg' : Moves g'] : Moves (if p then g else g') := by
  split
  · exact hg
  · exact hg'

instance times_moves (g : Reader α) [Moves g] (n : Nat) : Moves (times g n) := by
  induction n with
  | zero => exact inferInstanceAs (Moves (pure _))
  | succ n ih => exact inferInstanceAs (Moves (g >>= fun a => times g n >>= fun as => pure (a :: as)))

instance many_moves (g : Reader α) [Moves g] (n : Nat) : Moves (many g n) := by
  induction n with
  | zero => exact inferInstanceAs (Moves (pure _))
  | succ n ih =>
    have h : Moves (g >>= fun a => many g n >>= fun as => pure (a :: as)) := inferInstance
    constructor <;> intro c <;> simp only [many] <;> split
    · exact h.data c
    · rfl
    · exact h.ok c
    · exact id
    · exact h.forward c
    · exact le_rfl
    · exact h.within c
    · exact id

theorem Fails.bind {g : Reader α} {f : α → Reader β} {bytes rest : List UInt8} [hf : ∀ a, Moves (f a)]
    (hg : Fails g bytes) : Fails (g >>= f) (bytes ++ rest) := by
  intro pre post
  have h := hg pre (rest ++ post)
  rw [List.append_assoc]
  exact Bool.eq_false_iff.2 fun hok => by simp [(hf _).ok _ hok] at h

/-! ## Reading or failing -/

/-- On `bytes`, `g` has no way but to read them as `a` or to fail. -/
def ReadsOrFails (g : Reader α) (bytes : List UInt8) (a : α) : Prop := Reads g bytes a ∨ Fails g bytes

section
variable {g : Reader α} {f : α → Reader β} {a : α} {b : β} {bytes rest : List UInt8}

theorem ReadsOrFails.bind [∀ a, Moves (f a)] (hg : ReadsOrFails g bytes a) (hf : ReadsOrFails (f a) rest b) :
    ReadsOrFails (g >>= f) (bytes ++ rest) b := by
  rcases hg with hg | hg
  · exact hf.imp hg.bind hg.bind_fails
  · exact .inr hg.bind

/-- A read that cannot fail goes first. -/
theorem Reads.then (hg : Reads g bytes a) (hf : ReadsOrFails (f a) rest b) : ReadsOrFails (g >>= f) (bytes ++ rest) b :=
  hf.imp hg.bind hg.bind_fails

/-- The last read of a record. -/
theorem ReadsOrFails.map (hg : ReadsOrFails g bytes a) (k : α → β) :
    ReadsOrFails (g >>= fun a => Pure.pure (k a)) bytes (k a) := by
  have h := hg.bind (f := fun a => Pure.pure (k a)) (.inl (.pure (k a)))
  rwa [List.append_nil] at h

/-- The first element that fails leaves the loop without `ok`. -/
theorem ReadsOrFails.many [Moves g] {put : α → List UInt8} {as : List α} (h : ∀ a ∈ as, ReadsOrFails g (put a) a) :
    ReadsOrFails (many g as.length) (as.flatMap put) as := by
  induction as with
  | nil => exact .inl (.pure [])
  | cons a as ih =>
    rw [List.forall_mem_cons] at h
    have hall := h.1.bind (f := fun a => do let as ← Reader.many g as.length; return a :: as) ((ih h.2).map (a :: ·))
    exact hall.imp (fun hreads pre post => hreads pre post) fun hfails pre post => hfails pre post

end

/-! ## What a reader yields -/

/-- Every value that `g` gives with `ok` set satisfies `P`. -/
def Yields (g : Reader α) (P : α → Prop) : Prop := ∀ c, (g c).2.ok = true → P (g c).1

theorem Yields.pure {P : α → Prop} {a : α} (h : P a) : Yields (pure a) P := fun _ _ => h

theorem Yields.bind {g : Reader α} {f : α → Reader β} {P : α → Prop} {Q : β → Prop} [hf : ∀ a, Moves (f a)]
    (hg : Yields g P) (h : ∀ a, P a → Yields (f a) Q) : Yields (g >>= f) Q :=
  fun c hok => h _ (hg c ((hf _).ok _ hok)) _ hok

/-- A read that the property does not depend on. -/
theorem Yields.skip {g : Reader α} {f : α → Reader β} {Q : β → Prop} (h : ∀ a, Yields (f a) Q) : Yields (g >>= f) Q :=
  fun _ hok => h _ _ hok

theorem Yields.times {g : Reader α} {P : α → Prop} [Moves g] (hg : Yields g P) (n : Nat) :
    Yields (times g n) fun as => as.length = n ∧ ∀ a ∈ as, P a := by
  induction n with
  | zero => exact .pure ⟨rfl, by simp⟩
  | succ n ih =>
    refine .bind hg fun a ha => .bind ih fun as has => .pure ?_
    exact ⟨by simp [has.1], List.forall_mem_cons.2 ⟨ha, has.2⟩⟩

theorem Yields.many {g : Reader α} {P : α → Prop} [Moves g] (hg : Yields g P) (n : Nat) :
    Yields (many g n) fun as => as.length ≤ n ∧ ∀ a ∈ as, P a := by
  induction n with
  | zero => exact .pure ⟨le_rfl, by simp⟩
  | succ n ih =>
    intro c hok
    simp only [Reader.many] at hok ⊢
    split at hok <;> rename_i hc
    · rw [if_pos hc]
      have h : Yields (g >>= fun a => Reader.many g n >>= fun as => Pure.pure (a :: as))
          fun as => as.length ≤ n + 1 ∧ ∀ a ∈ as, P a := by
        refine .bind hg fun a ha => .bind ih fun as has => .pure ?_
        exact ⟨by simpa using has.1, List.forall_mem_cons.2 ⟨ha, has.2⟩⟩
      exact h c hok
    · exact absurd hok hc

end Reader

end Lib
