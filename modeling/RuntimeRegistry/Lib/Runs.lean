import Mathlib
/-!
# Runs of a system

A system is a relation `step s e t`: event `e` takes state `s` to `t`. An event
carries the request with its outcome, successful or refused, so a theorem
about every run is about every order of requests. `Run.inv` is the invariant
rule, `Run.rel` the rule for a relation between the two ends, `Run.refines` the
rule for a run of a more abstract system, and `Guarded` restricts a system to the
steps that meet a condition.
-/

namespace Lib

variable {S E : Type}

/-- Runs of `step` from a state to another, with their events in order. -/
inductive Run (step : S → E → S → Prop) : S → List E → S → Prop
  | nil (s : S) : Run step s [] s
  | cons {s t u : S} {e : E} {es : List E} : step s e t → Run step t es u → Run step s (e :: es) u

/-- The steps of `step` whose state and event meet `P`. -/
def Guarded (step : S → E → S → Prop) (P : S → E → Prop) (s : S) (e : E) (t : S) : Prop := step s e t ∧ P s e

/-- The states that the runs from `init` end in. -/
def Reachable (step : S → E → S → Prop) (init : S) (s : S) : Prop := ∃ es, Run step init es s

variable {step step' : S → E → S → Prop}

namespace Run

theorem append {s t u : S} {es fs : List E} (h : Run step s es t) (h' : Run step t fs u) :
    Run step s (es ++ fs) u := by
  induction h with
  | nil => exact h'
  | cons hs _ ih => exact .cons hs (ih h')

theorem single {s t : S} {e : E} (h : step s e t) : Run step s [e] t := .cons h (.nil t)

/-- A run splits where its events do. -/
theorem split {s u : S} {es fs : List E} (h : Run step s (es ++ fs) u) :
    ∃ t, Run step s es t ∧ Run step t fs u := by
  induction es generalizing s with
  | nil => exact ⟨s, .nil s, h⟩
  | cons e es ih =>
    cases h with
    | cons hs h =>
      obtain ⟨t, h₁, h₂⟩ := ih h
      exact ⟨t, .cons hs h₁, h₂⟩

/-- A run of a system is a run of every system that allows its steps. -/
theorem mono (hs : ∀ s e t, step s e t → step' s e t) {s t : S} {es : List E} (h : Run step s es t) :
    Run step' s es t := by
  induction h with
  | nil => exact .nil _
  | cons h _ ih => exact .cons (hs _ _ _ h) ih

theorem unguarded {P : S → E → Prop} {s t : S} {es : List E} (h : Run (Guarded step P) s es t) : Run step s es t :=
  h.mono fun _ _ _ hs => hs.1

/-- The condition met by every step holds of every event, whatever the state. -/
theorem guard_mem {P : S → E → Prop} {Q : E → Prop} (hQ : ∀ s e, P s e → Q e) {s t : S} {es : List E}
    (h : Run (Guarded step P) s es t) : ∀ e ∈ es, Q e := by
  induction h with
  | nil => simp
  | cons hs _ ih => exact List.forall_mem_cons.2 ⟨hQ _ _ hs.2, ih⟩

/-- An invariant kept by every step holds after every run. -/
theorem inv (I : S → Prop) (hs : ∀ s e t, I s → step s e t → I t) {s t : S} {es : List E} (h : Run step s es t)
    (h0 : I s) : I t := by
  induction h with
  | nil => exact h0
  | cons hst _ ih => exact ih (hs _ _ _ h0 hst)

/-- A preorder that every step moves along holds between the ends of a run. -/
theorem rel (R : S → S → Prop) (hrefl : ∀ s, R s s) (htrans : ∀ s t u, R s t → R t u → R s u)
    (hs : ∀ s e t, step s e t → R s t) {s t : S} {es : List E} (h : Run step s es t) : R s t := by
  induction h with
  | nil => exact hrefl _
  | cons hst _ ih => exact htrans _ _ _ (hs _ _ _ hst) ih

/-- Where each step of a system is a run of another one, so is each run. -/
theorem refines {T F : Type} {spec : T → F → T → Prop} {I : S → Prop} (abs : S → T) {moves : E → List F}
    (hI : ∀ s e t, I s → step s e t → I t) (hs : ∀ s e t, I s → step s e t → Run spec (abs s) (moves e) (abs t))
    {s t : S} {es : List E} (h : Run step s es t) (h0 : I s) : Run spec (abs s) (es.flatMap moves) (abs t) := by
  induction h with
  | nil => exact .nil _
  | cons hst _ ih =>
    rw [List.flatMap_cons]
    exact (hs _ _ _ h0 hst).append (ih (hI _ _ _ h0 hst))

/-- What a state has put out grows by what the events put out. -/
theorem output {α : Type} {I : S → Prop} {out : S → List α} {puts : E → List α} (hI : ∀ s e t, I s → step s e t → I t)
    (hs : ∀ s e t, I s → step s e t → out t = out s ++ puts e) {s t : S} {es : List E} (h : Run step s es t) (h0 : I s) :
    out t = out s ++ es.flatMap puts := by
  induction h with
  | nil => exact (List.append_nil _).symm
  | cons hst _ ih => rw [ih (hI _ _ _ h0 hst), hs _ _ _ h0 hst, List.flatMap_cons, List.append_assoc]

/-- Where each step keeps `P` exactly if it meets `Q`, a run of determined steps keeps `P` at every
point exactly if all of its steps meet `Q`. -/
theorem throughout_iff {P I : S → Prop} {Q : S → E → Prop} (hI : ∀ s e t, I s → step s e t → I t)
    (hdet : ∀ s e t t', step s e t → step s e t' → t' = t)
    (hstep : ∀ s e t, I s → step s e t → P s → (P t ↔ Q s e)) {s t : S} {es : List E} (h0 : I s) (h : Run step s es t) :
    (Run (Guarded step fun s _ => P s) s es t ∧ P t) ↔ P s ∧ Run (Guarded step Q) s es t := by
  induction h with
  | nil =>
    rw [and_iff_right (.nil _)]
    exact (and_iff_left (.nil _)).symm
  | @cons s u t e es hs _ ih =>
    have hiff := ih (hI s e u h0 hs)
    constructor
    · rintro ⟨hrun, hP⟩
      cases hrun with
      | cons hs' hrest =>
        obtain rfl := hdet s e u _ hs hs'.1
        obtain ⟨hPu, hQ⟩ := hiff.1 ⟨hrest, hP⟩
        exact ⟨hs'.2, .cons ⟨hs, (hstep s e _ h0 hs hs'.2).1 hPu⟩ hQ⟩
    · rintro ⟨hP, hrun⟩
      cases hrun with
      | cons hs' hrest =>
        obtain rfl := hdet s e u _ hs hs'.1
        obtain ⟨hrun, hPt⟩ := hiff.2 ⟨(hstep s e _ h0 hs hP).2 hs'.2, hrest⟩
        exact ⟨.cons ⟨hs, hP⟩ hrun, hPt⟩

end Run

namespace Reachable

theorem refl (s : S) : Reachable step s s := ⟨[], .nil s⟩

theorem run {init s t : S} {es : List E} (h : Reachable step init s) (hr : Run step s es t) : Reachable step init t := by
  obtain ⟨fs, hf⟩ := h
  exact ⟨fs ++ es, hf.append hr⟩

/-- An invariant of the initial state that every step keeps holds in every
reachable state. -/
theorem inv {init s : S} (I : S → Prop) (h0 : I init) (hs : ∀ s e t, I s → step s e t → I t)
    (h : Reachable step init s) : I s := by
  obtain ⟨_, hr⟩ := h
  exact hr.inv I hs h0

end Reachable

end Lib
