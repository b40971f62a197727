import Mathlib
/-!
# Registers that keep the newest value

A register is offered one value after another and keeps the newest; an empty one refuses
values that are barred. Where values of one age are equal, what it ends with depends on
which values it was offered, not on their order and not on how often it was offered them.
-/

namespace Lib

variable {V G : Type} [LinearOrder G]

/-- What the register holds once it was offered `v`. -/
def offer (age : V → G) (barred : V → Bool) (cur : Option V) (v : V) : Option V :=
  match cur with
  | some w => if age w < age v then some v else some w
  | none => if barred v then none else some v

/-- The newest of what the register held and the values it was offered. -/
structure Newest (age : V → G) (barred : V → Bool) (cur : Option V) (vs : List V) (u : V) : Prop where
  mem : cur = some u ∨ u ∈ vs
  stored : ∀ w, cur = some w → age w ≤ age u
  offered : ∀ v ∈ vs, age v ≤ age u
  admitted : cur = none → barred u = false

/-- Values of one age are equal, and what is barred bars all that is older. -/
structure Coherent (age : V → G) (barred : V → Bool) (cur : Option V) (vs : List V) : Prop where
  stored : ∀ w, cur = some w → ∀ v ∈ vs, age v = age w → v = w
  offered : ∀ v ∈ vs, ∀ w ∈ vs, age v = age w → v = w
  barred : ∀ v ∈ vs, ∀ w ∈ vs, age v ≤ age w → barred w = true → barred v = true

variable {age : V → G} {barred : V → Bool} {cur : Option V} {v u : V} {vs : List V}

theorem Coherent.tail (h : Coherent age barred cur (v :: vs)) : Coherent age barred (offer age barred cur v) vs where
  stored w hw x hx hage := by
    rcases cur with _ | c
    · by_cases hb : barred v
      · simp [offer, hb] at hw
      · simp only [offer, hb, Bool.false_eq_true, if_false, Option.some.injEq] at hw
        subst hw
        exact h.offered x (List.mem_cons_of_mem _ hx) v List.mem_cons_self hage
    · simp only [offer] at hw
      split_ifs at hw with hlt
      · obtain rfl := Option.some.inj hw
        exact h.offered x (List.mem_cons_of_mem _ hx) _ List.mem_cons_self hage
      · obtain rfl := Option.some.inj hw
        exact h.stored _ rfl x (List.mem_cons_of_mem _ hx) hage
  offered x hx y hy := h.offered x (List.mem_cons_of_mem _ hx) y (List.mem_cons_of_mem _ hy)
  barred x hx y hy := h.barred x (List.mem_cons_of_mem _ hx) y (List.mem_cons_of_mem _ hy)

/-- An offer leaves the newest value the newest. -/
theorem newest_cons (h : Coherent age barred cur (v :: vs)) :
    Newest age barred (offer age barred cur v) vs u ↔ Newest age barred cur (v :: vs) u := by
  rcases cur with _ | w
  · by_cases hb : barred v = true
    · -- a barred value is no newer than one that is admitted
      have hoffer : offer age barred none v = none := if_pos hb
      rw [hoffer]
      constructor
      · intro hu
        have hmem : u ∈ vs := hu.mem.resolve_left (by simp)
        refine ⟨.inr (List.mem_cons_of_mem _ hmem), hu.stored, List.forall_mem_cons.2 ⟨?_, hu.offered⟩, hu.admitted⟩
        by_contra hlt
        have hbu := h.barred u (List.mem_cons_of_mem _ hmem) v List.mem_cons_self (le_of_not_ge hlt) hb
        rw [hu.admitted rfl] at hbu
        cases hbu
      · intro hu
        refine ⟨.inr ?_, hu.stored, fun x hx => hu.offered x (List.mem_cons_of_mem _ hx), hu.admitted⟩
        rcases List.mem_cons.1 (hu.mem.resolve_left (by simp)) with rfl | hmem
        · rw [hu.admitted rfl] at hb
          cases hb
        · exact hmem
    · have hoffer : offer age barred none v = some v := if_neg hb
      rw [hoffer]
      constructor
      · intro hu
        have hle := hu.stored v rfl
        have hmem : u ∈ v :: vs := by
          rcases hu.mem with hv | hmem
          · rw [Option.some.inj hv]
            exact List.mem_cons_self
          · exact List.mem_cons_of_mem _ hmem
        refine ⟨.inr hmem, by simp, List.forall_mem_cons.2 ⟨hle, hu.offered⟩, fun _ => ?_⟩
        by_contra hbu
        exact hb (h.barred v List.mem_cons_self u hmem hle (by simpa using hbu))
      · intro hu
        refine ⟨?_, ?_, fun x hx => hu.offered x (List.mem_cons_of_mem _ hx), by simp⟩
        · rcases List.mem_cons.1 (hu.mem.resolve_left (by simp)) with rfl | hmem
          · exact .inl rfl
          · exact .inr hmem
        · rintro x ⟨⟩
          exact hu.offered v List.mem_cons_self
  · by_cases hlt : age w < age v
    · have hoffer : offer age barred (some w) v = some v := if_pos hlt
      rw [hoffer]
      constructor
      · intro hu
        have hle := hu.stored v rfl
        refine ⟨.inr ?_, ?_, List.forall_mem_cons.2 ⟨hle, hu.offered⟩, by simp⟩
        · rcases hu.mem with hv | hmem
          · rw [Option.some.inj hv]
            exact List.mem_cons_self
          · exact List.mem_cons_of_mem _ hmem
        · rintro x ⟨⟩
          exact hlt.le.trans hle
      · intro hu
        refine ⟨?_, ?_, fun x hx => hu.offered x (List.mem_cons_of_mem _ hx), by simp⟩
        · rcases hu.mem with hw | hmem
          · obtain rfl := Option.some.inj hw
            exact absurd (hu.offered v List.mem_cons_self) (not_le.2 hlt)
          · rcases List.mem_cons.1 hmem with rfl | hmem
            · exact .inl rfl
            · exact .inr hmem
        · rintro x ⟨⟩
          exact hu.offered v List.mem_cons_self
    · have hoffer : offer age barred (some w) v = some w := if_neg hlt
      rw [hoffer]
      constructor
      · intro hu
        refine ⟨hu.mem.imp_right (List.mem_cons_of_mem _), hu.stored, List.forall_mem_cons.2 ⟨?_, hu.offered⟩, by simp⟩
        exact (not_lt.1 hlt).trans (hu.stored w rfl)
      · intro hu
        refine ⟨?_, hu.stored, fun x hx => hu.offered x (List.mem_cons_of_mem _ hx), by simp⟩
        rcases hu.mem with hw | hmem
        · exact .inl hw
        · rcases List.mem_cons.1 hmem with rfl | hmem
          · -- a value that is offered and no older than the one held is that one
            have hage := le_antisymm (not_lt.1 hlt) (hu.stored w rfl)
            rw [h.stored w rfl u List.mem_cons_self hage]
            exact .inl rfl
          · exact .inr hmem

/-- The register ends with the newest value. -/
theorem foldl_offer_iff (h : Coherent age barred cur vs) :
    vs.foldl (offer age barred) cur = some u ↔ Newest age barred cur vs u := by
  induction vs generalizing cur with
  | nil =>
    constructor
    · intro hu
      refine ⟨.inl hu, ?_, by simp, ?_⟩
      · rintro w rfl
        rw [Option.some.inj hu]
      · rintro rfl
        cases hu
    · intro hu
      exact hu.mem.resolve_right List.not_mem_nil
  | cons v vs ih => rw [List.foldl_cons, ih h.tail, newest_cons h]

theorem Coherent.congr {vs' : List V} (h : Coherent age barred cur vs) (hmem : ∀ v, v ∈ vs ↔ v ∈ vs') :
    Coherent age barred cur vs' where
  stored w hw v hv := h.stored w hw v ((hmem v).2 hv)
  offered v hv w hw := h.offered v ((hmem v).2 hv) w ((hmem w).2 hw)
  barred v hv w hw := h.barred v ((hmem v).2 hv) w ((hmem w).2 hw)

/-- Two registers that held the same and were offered the same values end with the same. -/
theorem foldl_offer_congr {vs' : List V} (h : Coherent age barred cur vs) (hmem : ∀ v, v ∈ vs ↔ v ∈ vs') :
    vs.foldl (offer age barred) cur = vs'.foldl (offer age barred) cur := by
  apply Option.ext
  intro u
  rw [foldl_offer_iff h, foldl_offer_iff (h.congr hmem)]
  constructor
  · intro hu
    exact ⟨hu.mem.imp_right (hmem u).1, hu.stored, fun v hv => hu.offered v ((hmem v).2 hv), hu.admitted⟩
  · intro hu
    exact ⟨hu.mem.imp_right (hmem u).2, hu.stored, fun v hv => hu.offered v ((hmem v).1 hv), hu.admitted⟩

end Lib
