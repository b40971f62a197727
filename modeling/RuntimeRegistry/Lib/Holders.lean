import Mathlib
/-!
# Who holds what

`current` says what each party holds and `owner` who holds each thing. The two
are `Matched` if they say the same: then a party holds at most one thing and a
thing has at most one owner. Giving a thing up keeps them matched, and so does
taking one that nobody holds in place of the one held before.
-/

namespace Lib

structure Holders (W B : Type) where
  current : W → Option B
  owner : B → Option W

namespace Holders

variable {W B : Type}

@[ext] theorem ext {h k : Holders W B} (hc : ∀ w, h.current w = k.current w) (ho : ∀ b, h.owner b = k.owner b) :
    h = k := by
  cases h
  cases k
  simp only [mk.injEq]
  exact ⟨funext hc, funext ho⟩

/-- The two say the same. -/
def Matched (h : Holders W B) : Prop := ∀ w b, h.current w = some b ↔ h.owner b = some w

/-- What a party holds, no other party holds. -/
theorem Matched.unique {h : Holders W B} (hm : h.Matched) {w w' : W} {b : B} (hw : h.current w = some b)
    (hw' : h.current w' = some b) : w = w' :=
  Option.some.inj (((hm w b).1 hw).symm.trans ((hm w' b).1 hw'))

/-! ## Giving up -/

section
variable [DecidableEq B]

/-- Nobody holds `b` any more. -/
def release (h : Holders W B) (b : B) : Holders W B where
  current w := if h.current w = some b then none else h.current w
  owner b' := if b' = b then none else h.owner b'

theorem Matched.release {h : Holders W B} (hm : h.Matched) (b : B) : (h.release b).Matched := by
  intro w b'
  unfold Holders.release
  dsimp only
  split_ifs with hc hb hb
  · simp
  · refine iff_of_false (by simp) fun ho => hb ?_
    exact Option.some.inj (((hm w b').2 ho).symm.trans hc)
  · exact iff_of_false (fun hc' => hc (hb ▸ hc')) (by simp)
  · exact hm w b'

/-- To give up what nobody holds changes nothing. -/
theorem Matched.release_free {h : Holders W B} (hm : h.Matched) {b : B} (hb : h.owner b = none) : h.release b = h := by
  refine Holders.ext (fun w => if_neg fun hc => ?_) fun b' => ?_
  · rw [hm, hb] at hc
    cases hc
  · unfold Holders.release
    dsimp only
    split_ifs with hbb
    · rw [hbb, hb]
    · rfl

end

/-! ## Taking -/

variable [DecidableEq W] [DecidableEq B]

/-- `w` holds `b`. -/
def assign (h : Holders W B) (w : W) (b : B) : Holders W B where
  current := Function.update h.current w (some b)
  owner := Function.update h.owner b (some w)

/-- `w` gives up what it holds and takes `b`. -/
def take (h : Holders W B) (w : W) (b : B) : Holders W B :=
  match h.current w with
  | none => h.assign w b
  | some held => (h.release held).assign w b

theorem Matched.assign {h : Holders W B} (hm : h.Matched) {w : W} {b : B} (hw : h.current w = none)
    (hb : h.owner b = none) : (h.assign w b).Matched := by
  intro w' b'
  unfold Holders.assign
  dsimp only
  by_cases hww : w' = w <;> by_cases hbb : b' = b
  · simp [hww, hbb]
  · subst hww
    rw [Function.update_self, Function.update_of_ne hbb, ← hm, hw]
    simp [Ne.symm hbb]
  · subst hbb
    rw [Function.update_self, Function.update_of_ne hww, hm, hb]
    simp [Ne.symm hww]
  · rw [Function.update_of_ne hww, Function.update_of_ne hbb]
    exact hm w' b'

theorem Matched.take {h : Holders W B} (hm : h.Matched) (w : W) {b : B} (hb : h.owner b = none) :
    (h.take w b).Matched := by
  unfold Holders.take
  split
  · exact hm.assign ‹_› hb
  · rename_i held hheld
    refine (hm.release held).assign ?_ ?_
    · simp [Holders.release, hheld]
    · simp [Holders.release, hb]

/-- Only the party that takes changes what it holds. -/
theorem Matched.take_current {h : Holders W B} (hm : h.Matched) (w w' : W) (b : B) :
    (h.take w b).current w' = if w' = w then some b else h.current w' := by
  unfold Holders.take
  split
  · simp [Holders.assign, Function.update_apply]
  · rename_i held hheld
    simp only [Holders.assign, Function.update_apply]
    split_ifs with hww
    · rfl
    · exact if_neg fun hheld' => hww (hm.unique hheld' hheld)

/-- What is taken has one owner, and what was held in its place has none. -/
theorem Matched.take_owner {h : Holders W B} (hm : h.Matched) (w : W) (b b' : B) :
    (h.take w b).owner b' = if b' = b then some w else if h.owner b' = some w then none else h.owner b' := by
  unfold Holders.take
  split
  · rename_i hnone
    have hfree : h.owner b' ≠ some w := fun ho => by simp [(hm w b').2 ho] at hnone
    simp [Holders.assign, Function.update_apply, hfree]
  · rename_i held hheld
    have howner : h.owner b' = some w ↔ b' = held := by rw [← hm, hheld, Option.some.injEq, eq_comm]
    simp [Holders.assign, Holders.release, Function.update_apply, howner]

end Holders

end Lib
