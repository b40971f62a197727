import RuntimeRegistry.Lib.Runs
/-!
# Tokens drawn from a counter

An authority draws each token above the last one and keeps the set of those that
are live. `Advances` relates two moments of it: what is live later was live
before or has been drawn since. A ledger also knows the epoch each token was drawn
in, and may be set back: then only a condition on what was drawn before keeps the
pairs of epoch and token distinct.
-/

namespace Lib

variable {ε β : Type} [LinearOrder ε] [LinearOrder β]

/-! ## Live tokens -/

structure Tokens (β : Type) where
  next : β
  live : Set β

namespace Tokens

/-- The counter has not gone back, and what is live was live or was drawn in between. -/
def Advances (s t : Tokens β) : Prop := s.next ≤ t.next ∧ ∀ b ∈ t.live, b ∈ s.live ∨ s.next < b

theorem Advances.refl (s : Tokens β) : s.Advances s := ⟨le_rfl, fun _ h => .inl h⟩

theorem Advances.trans {s t u : Tokens β} (h₁ : s.Advances t) (h₂ : t.Advances u) : s.Advances u := by
  refine ⟨h₁.1.trans h₂.1, fun b hb => ?_⟩
  rcases h₂.2 b hb with h | h
  · exact h₁.2 b h
  · exact .inr (h₁.1.trans_lt h)

/-- A drawn token that is not live is never live again. -/
theorem Advances.dead {s t : Tokens β} (h : s.Advances t) {b : β} (hb : b ≤ s.next) (hd : b ∉ s.live) : b ∉ t.live := by
  intro ht
  rcases h.2 b ht with h | h
  · exact hd h
  · exact h.not_ge hb

end Tokens

/-! ## Tokens under epochs -/

structure Ledger (ε β : Type) where
  epoch : ε
  next : β
  issued : List (ε × β)

namespace Ledger

/-- No token of the epoch, or of a later one, lies above the counter. -/
def Fresh (l : Ledger ε β) : Prop := ∀ p ∈ l.issued, l.epoch ≤ p.1 → p.2 ≤ l.next

/-- A token is drawn above the counter, or epoch and counter are set to where
every issued token is behind. -/
inductive Step : Ledger ε β → Unit → Ledger ε β → Prop
  | issue (l : Ledger ε β) (b : β) (h : l.next < b) :
    Step l () { l with next := b, issued := (l.epoch, b) :: l.issued }
  | move (l : Ledger ε β) (e : ε) (n : β) (h : Fresh { l with epoch := e, next := n }) :
    Step l () { l with epoch := e, next := n }

theorem Step.fresh {l l' : Ledger ε β} {u : Unit} (h : Step l u l') (hf : l.Fresh) : l'.Fresh := by
  cases h with
  | issue b h =>
    intro p hp hle
    rcases List.mem_cons.1 hp with rfl | hp
    · exact le_rfl
    · exact (hf p hp hle).trans h.le
  | move e n h => exact h

theorem Step.nodup {l l' : Ledger ε β} {u : Unit} (h : Step l u l') (hf : l.Fresh) (hn : l.issued.Nodup) :
    l'.issued.Nodup := by
  cases h with
  | issue b h =>
    refine List.nodup_cons.2 ⟨fun hmem => ?_, hn⟩
    exact (hf _ hmem le_rfl).not_gt h
  | move e n h => exact hn

/-- A step that issues nothing. -/
theorem Step.settle {l l' : Ledger ε β} (h : l'.issued = l.issued) (hf : l'.Fresh) : Step l () l' := by
  obtain ⟨epoch, next, issued⟩ := l'
  obtain rfl : issued = l.issued := h
  exact .move l epoch next hf

/-- A later epoch leaves every issued token behind. -/
theorem Fresh.later {l : Ledger ε β} (h : l.Fresh) {e : ε} (he : l.epoch ≤ e) : Fresh { l with epoch := e } :=
  fun p hp hle => h p hp (he.trans hle)

end Ledger

end Lib
