import RuntimeRegistry.Lib.Runs
/-!
# Interleavings of two clients

Two clients of one system, each with its own steps. An interleaving takes the steps
of the two in any order. Where neighbouring steps of different clients swap, up to a
relation that the steps cannot tell, an interleaving ends like the run that
serves one client after the other, so two interleavings of the same requests give
the same answers and end alike.
-/

namespace Lib

variable {S L O : Type}

/-- An interleaving of the steps labelled `as` of one client and `bs` of the other. -/
inductive Interleaved (stepA stepB : S → L → S → Prop) : S → List L → List L → S → Prop
  | nil (s : S) : Interleaved stepA stepB s [] [] s
  | left {s t u : S} {a : L} {as bs : List L} : stepA s a t → Interleaved stepA stepB t as bs u →
      Interleaved stepA stepB s (a :: as) bs u
  | right {s t u : S} {b : L} {as bs : List L} : stepB s b t → Interleaved stepA stepB t as bs u →
      Interleaved stepA stepB s as (b :: bs) u

/-- An interleaving is one of all clients that can take the steps. -/
theorem Interleaved.mono {stepA stepB stepA' stepB' : S → L → S → Prop} (hA : ∀ s a t, stepA s a t → stepA' s a t)
    (hB : ∀ s b t, stepB s b t → stepB' s b t) {s t : S} {as bs : List L} (h : Interleaved stepA stepB s as bs t) :
    Interleaved stepA' stepB' s as bs t := by
  induction h with
  | nil s => exact .nil s
  | left h _ ih => exact .left (hA _ _ _ h) ih
  | right h _ ih => exact .right (hB _ _ _ h) ih

/-- The step can be taken from every state alike, and a label is told by the request
in it. -/
structure Replays (I : S → Prop) (Alike : S → S → Prop) (request : L → O) (step : S → L → S → Prop) : Prop where
  keeps : ∀ s a t, I s → step s a t → I t
  replay : ∀ s s' a t, I s → I s' → Alike s s' → step s a t → ∃ t', step s' a t' ∧ Alike t t'
  determined : ∀ s s' a a' t t', I s → I s' → Alike s s' → step s a t → step s' a' t' → request a = request a' →
    a = a' ∧ Alike t t'

/-- Two clients whose steps do not touch each other: a step of the one after a step
of the other can be taken before it. -/
structure Apart (I : S → Prop) (Alike : S → S → Prop) (request : L → O) (stepA stepB : S → L → S → Prop) : Prop where
  equivalence : Equivalence Alike
  left : Replays I Alike request stepA
  right : Replays I Alike request stepB
  swap : ∀ s b t a u, I s → stepB s b t → stepA t a u → ∃ t' u', stepA s a t' ∧ stepB t' b u' ∧ Alike u u'

variable {I : S → Prop} {Alike : S → S → Prop} {request : L → O} {step stepA stepB : S → L → S → Prop}

namespace Replays

theorem keeps_run (h : Replays I Alike request step) {s t : S} {as : List L} (hs : I s) (hr : Run step s as t) : I t :=
  hr.inv I h.keeps hs

theorem replay_run (h : Replays I Alike request step) {s s' t : S} {as : List L} (hs : I s) (hs' : I s')
    (hsim : Alike s s') (hr : Run step s as t) : ∃ t', Run step s' as t' ∧ Alike t t' := by
  induction hr generalizing s' with
  | nil => exact ⟨s', .nil s', hsim⟩
  | cons hst _ ih =>
    obtain ⟨t', hst', hsim'⟩ := h.replay _ _ _ _ hs hs' hsim hst
    obtain ⟨u', hr', hend⟩ := ih (h.keeps _ _ _ hs hst) (h.keeps _ _ _ hs' hst') hsim'
    exact ⟨u', .cons hst' hr', hend⟩

/-- Runs of the same requests from states alike have the same labels and end alike. -/
theorem determined_run (h : Replays I Alike request step) {s s' t t' : S} {as as' : List L} (hs : I s) (hs' : I s')
    (hsim : Alike s s') (hr : Run step s as t) (hr' : Run step s' as' t') (hreq : as.map request = as'.map request) :
    as = as' ∧ Alike t t' := by
  induction hr generalizing s' as' with
  | nil =>
    cases hr' with
    | nil => exact ⟨rfl, hsim⟩
    | cons _ _ => simp at hreq
  | cons hst _ ih =>
    cases hr' with
    | nil => simp at hreq
    | cons hst' hrest' =>
      rw [List.map_cons, List.map_cons, List.cons.injEq] at hreq
      obtain ⟨rfl, hsim'⟩ := h.determined _ _ _ _ _ _ hs hs' hsim hst hst' hreq.1
      obtain ⟨rfl, hend⟩ := ih (h.keeps _ _ _ hs hst) (h.keeps _ _ _ hs' hst') hsim' hrest' hreq.2
      exact ⟨rfl, hend⟩

end Replays

namespace Apart

/-- A step of the other client moves behind a run of the first. -/
theorem push (h : Apart I Alike request stepA stepB) {s t u : S} {b : L} {as : List L} (hs : I s) (hb : stepB s b t)
    (hr : Run stepA t as u) : ∃ t' u', Run stepA s as t' ∧ stepB t' b u' ∧ Alike u u' := by
  induction as generalizing s t u with
  | nil =>
    cases hr
    exact ⟨s, t, .nil s, hb, h.equivalence.refl t⟩
  | cons a as ih =>
    cases hr with
    | cons ha hrest =>
      rename_i v
      obtain ⟨s₁, v', ha', hb', hsim⟩ := h.swap _ _ _ _ _ hs hb ha
      have hs₁ : I s₁ := h.left.keeps _ _ _ hs ha'
      have hv : I v := h.left.keeps _ _ _ (h.right.keeps _ _ _ hs hb) ha
      obtain ⟨u₁, hrest', hend⟩ := h.left.replay_run hv (h.right.keeps _ _ _ hs₁ hb') hsim hrest
      obtain ⟨t', u', hrun, hlast, hend'⟩ := ih hs₁ hb' hrest'
      exact ⟨t', u', .cons ha' hrun, hlast, h.equivalence.trans hend hend'⟩

/-- An interleaving ends like the run of the one client and then the other. -/
theorem sorted (h : Apart I Alike request stepA stepB) {s u : S} {as bs : List L} (hs : I s)
    (hi : Interleaved stepA stepB s as bs u) : ∃ t u', Run stepA s as t ∧ Run stepB t bs u' ∧ Alike u u' := by
  induction hi with
  | nil s => exact ⟨s, s, .nil s, .nil s, h.equivalence.refl s⟩
  | left ha _ ih =>
    obtain ⟨t, u', hleft, hright, hend⟩ := ih (h.left.keeps _ _ _ hs ha)
    exact ⟨t, u', .cons ha hleft, hright, hend⟩
  | right hb _ ih =>
    have ht := h.right.keeps _ _ _ hs hb
    obtain ⟨t, u', hleft, hright, hend⟩ := ih ht
    obtain ⟨s', t', hleft', hb', hsim⟩ := h.push hs hb hleft
    -- the rest of the other client's run is replayed behind the moved step
    have hmoved := h.right.keeps _ _ _ (h.left.keeps_run hs hleft') hb'
    obtain ⟨u'', hright', hend'⟩ := h.right.replay_run (h.left.keeps_run ht hleft) hmoved hsim hright
    exact ⟨s', u'', hleft', .cons hb' hright', h.equivalence.trans hend hend'⟩

/-- Two interleavings of the same requests have the same labels and end alike. -/
theorem unique (h : Apart I Alike request stepA stepB) {s t u : S} {as as' bs bs' : List L} (hs : I s)
    (hi : Interleaved stepA stepB s as bs t) (hi' : Interleaved stepA stepB s as' bs' u)
    (ha : as.map request = as'.map request) (hb : bs.map request = bs'.map request) :
    as = as' ∧ bs = bs' ∧ Alike t u := by
  obtain ⟨v, t', hleft, hright, hend⟩ := h.sorted hs hi
  obtain ⟨v', u', hleft', hright', hend'⟩ := h.sorted hs hi'
  obtain ⟨rfl, hsim⟩ := h.left.determined_run hs hs (h.equivalence.refl s) hleft hleft' ha
  obtain ⟨rfl, hsim'⟩ := h.right.determined_run (h.left.keeps_run hs hleft) (h.left.keeps_run hs hleft') hsim hright
    hright' hb
  exact ⟨rfl, rfl, h.equivalence.trans hend (h.equivalence.trans hsim' (h.equivalence.symm hend'))⟩

end Apart

end Lib
