import RuntimeRegistry.Aggregates
import RuntimeRegistry.Endpoints
/-!
# What the aggregates are meant for

The health of an instance is to be no better than anything it is drawn from, and
neither aggregate is to show the order of the endpoints. Both hold but for the cases
that are told here.
-/
open Lib

namespace RuntimeRegistry

open Ailment (afflict)

namespace Registry

variable {r t : Registry} {inst : ServiceInstance} {eps : Map .EndpointId EndpointDescriptor}

/-- The instance with its endpoints in another order. -/
abbrev withEndpoints (inst : ServiceInstance) (l : List EndpointId) : ServiceInstance := { inst with endpoints := l }

/-- An instance without endpoints has only itself for an order. -/
theorem withEndpoints_cases {l : List EndpointId} (hl : l.Perm inst.endpoints) :
    withEndpoints inst l = inst ∨ inst.endpoints ≠ [] ∧ (withEndpoints inst l).endpoints ≠ [] := by
  by_cases hnil : inst.endpoints = []
  · have hl' : l = inst.endpoints := by
      rw [hnil] at hl ⊢
      exact hl.eq_nil
    subst hl'
    exact .inl rfl
  · refine .inr ⟨hnil, fun h => ?_⟩
    have hnil' : l = [] := h
    rw [hnil'] at hl
    exact hnil hl.nil_eq.symm

theorem aggregate_health_perm {l : List EndpointId} (hl : l.Perm inst.endpoints) :
    aggregate_health (withEndpoints inst l) eps = aggregate_health inst eps := by
  rw [aggregate_health_eq, aggregate_health_eq, worst, worst, heaviest_perm _ hl]

theorem worst_degraded : worst inst eps = .degraded ↔ ListsHealth inst eps (· = Health.DEGRADED) ∧
    ¬ ListsHealth inst eps (fun h => h = Health.UNHEALTHY ∨ h = Health.UNAVAILABLE) := by
  have hbetween : ∀ a : Ailment, a = .degraded ↔ .none < a ∧ ¬ .degraded < a := by
    intro a
    cases a <;> decide
  rw [hbetween, lt_worst le_rfl, lt_worst (by decide)]
  simp only [ofHealth_unhealthy]
  refine and_congr_left fun hno => ?_
  constructor
  · rintro ⟨eid, hmem, ep, hep, hails⟩
    refine ⟨eid, hmem, ep, hep, ?_⟩
    have hbad : ¬ (ep.health = Health.UNHEALTHY ∨ ep.health = Health.UNAVAILABLE) := fun h => hno ⟨eid, hmem, ep, hep, h⟩
    by_contra hdegraded
    simp [Ailment.ofHealth, hbad, hdegraded] at hails
  · rintro ⟨eid, hmem, ep, hep, hdegraded⟩
    exact ⟨eid, hmem, ep, hep, by rw [hdegraded]; decide⟩

/-! ## Pessimism -/

/-- The order of the known healths, the best first; what is unhealthy and what is
unavailable are equally bad. -/
def severity : Enum Health → Option ℕ
  | .named .HEALTHY => some 0
  | .named .DEGRADED => some 1
  | .named .UNHEALTHY | .named .UNAVAILABLE => some 2
  | .named .UNKNOWN | .unnamed _ _ => none

/-- Both are known, and the first is better. -/
def Better (a b : Enum Health) : Prop := ∃ m n, severity a = some m ∧ severity b = some n ∧ m < n

/-- The aggregate is no better than what the instance reports and than any endpoint
that it lists, and does not show the order of the list. -/
structure Pessimistic (inst : ServiceInstance) (eps : Map .EndpointId EndpointDescriptor) : Prop where
  own : ¬ Better (aggregate_health inst eps) inst.health
  endpoints : ∀ eid ∈ inst.endpoints, ∀ ep, eps[eid]? = some ep → ¬ Better (aggregate_health inst eps) ep.health
  unordered : ∀ l, l.Perm inst.endpoints → aggregate_health (withEndpoints inst l) eps = aggregate_health inst eps

theorem better_afflict (h : Enum Health) (a : Ailment) : Better (afflict h a) h ↔ h = Health.UNAVAILABLE ∧ a = .degraded := by
  rcases h with h | _
  · cases h <;> cases a <;> simp [Better, severity, afflict]
  · cases a <;> simp [Better, severity]

/-- What is left is at least as bad as the ailment. -/
theorem level_le_severity {h : Enum Health} {a : Ailment} {m : ℕ} (hm : severity (afflict h a) = some m) : a.level ≤ m := by
  cases a
  case none => exact Nat.zero_le m
  case degraded =>
    by_cases hh : h = Health.UNHEALTHY
    · simp only [afflict, hh, if_true, severity, Option.some.injEq] at hm
      simp [Ailment.level, ← hm]
    · simp only [afflict, hh, if_false, severity, Option.some.injEq] at hm
      simp [Ailment.level, ← hm]
  case unhealthy =>
    simp only [afflict, severity, Option.some.injEq] at hm
    simp [Ailment.level, ← hm]

/-- An endpoint is as bad as its ailment. -/
theorem severity_eq_level {h : Enum Health} {n : ℕ} (hn : severity h = some n) : n = (Ailment.ofHealth h).level := by
  rcases h with h | _
  · cases h <;> simp_all [severity, Ailment.ofHealth, Ailment.level]
  · cases hn

theorem not_better_endpoint {h h' : Enum Health} {a : Ailment} (ha : Ailment.ofHealth h' ≤ a) : ¬ Better (afflict h a) h' := by
  rintro ⟨m, n, hm, hn, hlt⟩
  have hlevel : (Ailment.ofHealth h').level ≤ a.level := ha
  have hweigh := level_le_severity hm
  have hown := severity_eq_level hn
  omega

/-- The aggregate is pessimistic unless the instance is unavailable and lists a
degraded endpoint, but none that is unhealthy or unavailable: degraded is what it
becomes. -/
theorem aggregate_health_pessimistic_iff (inst : ServiceInstance) (eps : Map .EndpointId EndpointDescriptor) :
    Pessimistic inst eps ↔ ¬ (inst.health = Health.UNAVAILABLE ∧ ListsHealth inst eps (· = Health.DEGRADED) ∧
      ¬ ListsHealth inst eps (fun h => h = Health.UNHEALTHY ∨ h = Health.UNAVAILABLE)) := by
  rw [← worst_degraded, ← better_afflict, ← aggregate_health_eq]
  constructor
  · intro h
    exact h.own
  · intro h
    refine ⟨h, fun eid hmem ep hep => ?_, fun l hl => aggregate_health_perm hl⟩
    rw [aggregate_health_eq]
    refine not_better_endpoint ((le_of_eq ?_).trans (le_heaviest hmem))
    rw [ailment, hep]

/-- An unavailable instance becomes degraded by listing a degraded endpoint. -/
theorem aggregate_health_improves :
    ¬ Pessimistic { health := Health.UNAVAILABLE, endpoints := [⟨7⟩] }
      (({} : Map .EndpointId EndpointDescriptor).insert ⟨7⟩ { health := Health.DEGRADED }) := by
  intro h
  exact h.own ⟨1, 2, by decide +kernel, rfl, by decide⟩

/-! ## Order -/

/-- The listed endpoints with an obstacle have the same one. -/
def OneObstacle (inst : ServiceInstance) (eps : Map .EndpointId EndpointDescriptor) : Prop :=
  ∀ eid ∈ inst.endpoints, ∀ eid' ∈ inst.endpoints, ∀ o o', obstacle eps eid = some o → obstacle eps eid' = some o' →
    o = o'

/-- The reachability shows the order of the list by the first obstacle only. -/
theorem aggregate_reachability_perm {l : List EndpointId} (hl : l.Perm inst.endpoints) :
    aggregate_reachability (withEndpoints inst l) eps = aggregate_reachability inst eps ↔
      l.findSome? (obstacle eps) = inst.endpoints.findSome? (obstacle eps) := by
  rcases withEndpoints_cases hl with hsame | ⟨hnil, hl'⟩
  · have hl' : l = inst.endpoints := congrArg (·.endpoints) hsame
    subst hl'
    exact iff_of_true rfl rfl
  · rw [aggregate_reachability_eq hnil, aggregate_reachability_eq hl', hl.any_eq, reported_inj]

/-- The classification of an instance, by the aggregates. -/
theorem reclassify_lifecycle_perm {l : List EndpointId} (hl : l.Perm inst.endpoints)
    (hr : aggregate_reachability (withEndpoints inst l) r.endpoints = aggregate_reachability inst r.endpoints) :
    (r.reclassify_lifecycle (withEndpoints inst l)).lifecycle = (r.reclassify_lifecycle inst).lifecycle := by
  unfold reclassify_lifecycle
  dsimp only
  rw [aggregate_health_perm hl, hr]
  rfl

/-- The reachability of an instance, and with it its lifecycle, does not show the
order of its endpoints if the listed endpoints with an obstacle have the same one,
and only then. -/
theorem reachability_unordered_iff (r : Registry) (inst : ServiceInstance) :
    (∀ l, l.Perm inst.endpoints →
        aggregate_reachability (withEndpoints inst l) r.endpoints = aggregate_reachability inst r.endpoints ∧
        (r.reclassify_lifecycle (withEndpoints inst l)).lifecycle = (r.reclassify_lifecycle inst).lifecycle) ↔
      OneObstacle inst r.endpoints := by
  rw [OneObstacle, ← findSome?_perm_iff]
  refine forall_congr' fun l => forall_congr' fun hl => ?_
  rw [← aggregate_reachability_perm hl]
  exact ⟨fun h => h.1, fun h => ⟨h, reclassify_lifecycle_perm hl h⟩⟩

/-! An unreachable endpoint, one that nothing is known of, and an instance that lists both. -/

def Sample.obstructed : Registry := Registry.fresh.after [
  .adopt_worker ⟨1⟩, .register_service Sample.service Sample.env,
  .register_endpoint { Sample.endpoint with reachability := Reachability.UNREACHABLE } Sample.env,
  .register_endpoint { Sample.endpoint with endpoint_id := ⟨8⟩, reachability := Reachability.UNKNOWN } Sample.env]

def Sample.listingBoth : ServiceInstance := { Sample.incarnation 5 1 with endpoints := [⟨7⟩, ⟨8⟩] }

/-- In the other order, the instance has another reachability and another lifecycle. -/
theorem reachability_ordered : Sample.obstructed.Reachable ∧ [⟨8⟩, ⟨7⟩].Perm Sample.listingBoth.endpoints ∧
    aggregate_reachability (withEndpoints Sample.listingBoth [⟨8⟩, ⟨7⟩]) Sample.obstructed.endpoints ≠
      aggregate_reachability Sample.listingBoth Sample.obstructed.endpoints ∧
    (Sample.obstructed.reclassify_lifecycle (withEndpoints Sample.listingBoth [⟨8⟩, ⟨7⟩])).lifecycle ≠
      (Sample.obstructed.reclassify_lifecycle Sample.listingBoth).lifecycle :=
  ⟨Reachable.after (.refl _) _, .swap _ _ _, by decide +kernel, by decide +kernel⟩

end Registry

end RuntimeRegistry
