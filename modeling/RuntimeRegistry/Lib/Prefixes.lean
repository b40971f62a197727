import RuntimeRegistry.Lib.Reader
/-!
# Readers over a longer buffer

A reader that ends with `ok` set has not seen the end of the buffer. `Prolongs` says
that it reads the same and ends at the same place when the buffer goes on, with a rule
for each way readers are put together.
-/

namespace Lib

/-- The cursor over the buffer with more bytes behind it. -/
def Cursor.prolonged (c : Cursor) (more : List UInt8) : Cursor := { c with data := c.data ++ more }

namespace Cursor

variable (c : Cursor) (more : List UInt8)

@[simp] theorem prolonged_data : (c.prolonged more).data = c.data ++ more := rfl

@[simp] theorem prolonged_pos : (c.prolonged more).pos = c.pos := rfl

@[simp] theorem prolonged_ok : (c.prolonged more).ok = c.ok := rfl

end Cursor

namespace Reader

variable {α β : Type}

/-- What was read with `ok` set is read again from any longer buffer. -/
class Prolongs (g : Reader α) : Prop extends Moves g where
  prolong : ∀ c more, (g c).2.ok = true → g (c.prolonged more) = ((g c).1, (g c).2.prolonged more)

instance (a : α) : Prolongs (pure a) where
  prolong _ _ _ := rfl

instance (g : Reader α) (f : α → Reader β) [hg : Prolongs g] [hf : ∀ a, Prolongs (f a)] : Prolongs (g >>= f) where
  prolong c more hok := by
    have hfirst : (g c).2.ok = true := (hf _).ok _ hok
    rw [bind_run, hg.prolong c more hfirst]
    exact (hf _).prolong _ more hok

instance : Prolongs fail where
  prolong _ _ hok := absurd hok Bool.false_ne_true

instance (p : Prop) [Decidable p] (g g' : Reader α) [hg : Prolongs g] [hg' : Prolongs g'] :
    Prolongs (if p then g else g') := by
  split
  · exact hg
  · exact hg'

instance times_prolongs (g : Reader α) [Prolongs g] (n : Nat) : Prolongs (times g n) := by
  induction n with
  | zero => exact inferInstanceAs (Prolongs (pure _))
  | succ n ih => exact inferInstanceAs (Prolongs (g >>= fun a => times g n >>= fun as => pure (a :: as)))

instance many_prolongs (g : Reader α) [Prolongs g] (n : Nat) : Prolongs (many g n) := by
  induction n with
  | zero => exact inferInstanceAs (Prolongs (pure _))
  | succ n ih =>
    have h : Prolongs (g >>= fun a => many g n >>= fun as => pure (a :: as)) := inferInstance
    refine { prolong := fun c more hok => ?_ }
    simp only [many, Cursor.prolonged_ok] at hok ⊢
    by_cases hc : c.ok = true
    · rw [if_pos hc] at hok
      simp only [hc, if_true]
      exact h.prolong c more hok
    · rw [if_neg hc] at hok
      exact absurd hok hc

end Reader

end Lib
