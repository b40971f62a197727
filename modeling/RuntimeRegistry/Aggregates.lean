import RuntimeRegistry.Instances
import RuntimeRegistry.Lib.Summaries
/-!
# Aggregates

The health and the reachability of an instance are drawn from its own and those of
the endpoints it lists. Each endpoint ails the health a little, a lot or not at
all, and only the worst of them counts. The reachability is told by the first
endpoint that stands in the way.
-/
open Lib

namespace RuntimeRegistry

/-! ## Health -/

/-- What the health of an endpoint does to that of an instance. -/
inductive Ailment
  | none | degraded | unhealthy
deriving DecidableEq

namespace Ailment

def level : Ailment → ℕ
  | none => 0
  | degraded => 1
  | unhealthy => 2

instance : LinearOrder Ailment := LinearOrder.lift' level fun a b => by cases a <;> cases b <;> decide

instance : OrderBot Ailment where
  bot := none
  bot_le a := Nat.zero_le a.level

@[simp] theorem bot_eq : (⊥ : Ailment) = none := rfl

/-- The health that the ailment leaves. -/
def afflict (h : Enum Health) : Ailment → Enum Health
  | none => h
  | degraded => if h = Health.UNHEALTHY then h else Health.DEGRADED
  | unhealthy => Health.UNHEALTHY

def ofHealth (h : Enum Health) : Ailment :=
  if h = Health.UNHEALTHY ∨ h = Health.UNAVAILABLE then unhealthy else if h = Health.DEGRADED then degraded else none

theorem afflict_of_degraded_lt (h : Enum Health) {a : Ailment} (ha : degraded < a) : afflict h a = Health.UNHEALTHY := by
  cases a
  case unhealthy => rfl
  all_goals exact absurd ha (by decide)

theorem afflict_joins : Joins afflict where
  bot _ := rfl
  sup s a b := by
    by_cases hs : s = Health.UNHEALTHY <;> cases a <;> cases b <;> simp [afflict, hs] <;> rfl

end Ailment

open Ailment (afflict afflict_joins)

namespace Registry

variable {r t : Registry} {inst : ServiceInstance} {eps : Map .EndpointId EndpointDescriptor}

/-- What an endpoint of the list does to the health; one that is not stored does
nothing. -/
def ailment (eps : Map .EndpointId EndpointDescriptor) (eid : EndpointId) : Ailment :=
  match eps[eid]? with
  | none => .none
  | some ep => Ailment.ofHealth ep.health

/-- The worst ailment of the listed endpoints. -/
def worst (inst : ServiceInstance) (eps : Map .EndpointId EndpointDescriptor) : Ailment :=
  heaviest (ailment eps) inst.endpoints

theorem aggregate_health_eq (inst : ServiceInstance) (eps : Map .EndpointId EndpointDescriptor) :
    aggregate_health inst eps = afflict inst.health (worst inst eps) := by
  rw [worst, ← afflict_joins.foldl, aggregate_health]
  congr 1
  funext h eid
  unfold ailment
  rcases eps[eid]? with _ | ep
  · rfl
  · by_cases hbad : ep.health = Health.UNHEALTHY ∨ ep.health = Health.UNAVAILABLE
    · simp [hbad, Ailment.ofHealth, afflict]
    · by_cases hdegraded : ep.health = Health.DEGRADED <;> by_cases hh : h = Health.UNHEALTHY <;>
        simp_all [Ailment.ofHealth, afflict]

/-- The instance lists a stored endpoint with such a health. -/
def ListsHealth (inst : ServiceInstance) (eps : Map .EndpointId EndpointDescriptor) (P : Enum Health → Prop) : Prop :=
  ∃ eid ∈ inst.endpoints, ∃ ep, eps[eid]? = some ep ∧ P ep.health

theorem lt_worst {a : Ailment} (ha : Ailment.none ≤ a) :
    a < worst inst eps ↔ ListsHealth inst eps fun h => a < Ailment.ofHealth h := by
  rw [worst, lt_heaviest, ListsHealth]
  refine exists_congr fun eid => and_congr_right fun _ => ?_
  unfold ailment
  rcases eps[eid]? with _ | ep
  · simpa using ha
  · simp

theorem ofHealth_unhealthy (h : Enum Health) :
    Ailment.degraded < Ailment.ofHealth h ↔ h = Health.UNHEALTHY ∨ h = Health.UNAVAILABLE := by
  unfold Ailment.ofHealth
  split_ifs with hbad hdegraded
  · exact iff_of_true (by decide) hbad
  · exact iff_of_false (by decide) hbad
  · exact iff_of_false (by decide) hbad

/-- An unhealthy endpoint makes the aggregate unhealthy, whatever the others are. -/
theorem aggregate_health_unhealthy {eid : EndpointId} {ep : EndpointDescriptor}
    (hmem : eid ∈ inst.endpoints) (hep : eps[eid]? = some ep)
    (hbad : ep.health = Health.UNHEALTHY ∨ ep.health = Health.UNAVAILABLE) :
    aggregate_health inst eps = Health.UNHEALTHY := by
  have hworst : Ailment.degraded < worst inst eps :=
    (lt_worst (by decide)).2 ⟨eid, hmem, ep, hep, (ofHealth_unhealthy _).2 hbad⟩
  rw [aggregate_health_eq, Ailment.afflict_of_degraded_lt _ hworst]

/-! ## Reachability -/

/-- What stands in the way of an endpoint. -/
inductive Obstacle
  | missing | unreachable | unverified
deriving DecidableEq

/-- The reachability reported for the first obstacle, or without one, for
whether an endpoint is degraded. -/
def reported : Option Obstacle → Bool → Enum Reachability
  | some .missing, _ => Reachability.UNKNOWN
  | some .unreachable, _ => Reachability.UNREACHABLE
  | some .unverified, _ => Reachability.REVALIDATION_REQUIRED
  | none, true => Reachability.DEGRADED
  | none, false => Reachability.REACHABLE

theorem reported_inj (o o' : Option Obstacle) (degraded : Bool) : reported o degraded = reported o' degraded ↔ o = o' := by
  rcases o with _ | _ | _ | _ <;> rcases o' with _ | _ | _ | _ <;> cases degraded <;> simp [reported]

theorem reported_named (o : Option Obstacle) (degraded : Bool) : (reported o degraded).Named := by
  rcases o with _ | _ | _ | _ <;> cases degraded <;> exact Enum.named_named _

theorem reported_reachable {o : Option Obstacle} {degraded : Bool} :
    reported o degraded = Reachability.REACHABLE ↔ o = none ∧ degraded = false := by
  rcases o with _ | _ | _ | _ <;> cases degraded <;> simp [reported]

/-- The endpoint is missing, unreachable or not verified, if it is. -/
def obstacle (eps : Map .EndpointId EndpointDescriptor) (eid : EndpointId) : Option Obstacle :=
  match eps[eid]? with
  | none => some .missing
  | some ep =>
    if ep.reachability = Reachability.UNREACHABLE then some .unreachable
    else if ep.reachability = Reachability.REVALIDATION_REQUIRED ∨ ep.reachability = Reachability.UNKNOWN then
      some .unverified
    else none

/-- The endpoint is stored and degraded. -/
def degradedEndpoint (eps : Map .EndpointId EndpointDescriptor) (eid : EndpointId) : Bool :=
  match eps[eid]? with
  | none => false
  | some ep => ep.reachability = Reachability.DEGRADED

theorem aggregateReachabilityLoop_eq (eps : Map .EndpointId EndpointDescriptor) (degraded : Bool)
    (eids : List EndpointId) : aggregateReachabilityLoop eps degraded eids =
      reported (eids.findSome? (obstacle eps)) (degraded || eids.any (degradedEndpoint eps)) := by
  induction eids generalizing degraded with
  | nil => cases degraded <;> rfl
  | cons eid eids ih =>
    unfold aggregateReachabilityLoop
    rw [List.findSome?_cons, List.any_cons]
    rcases hep : eps[eid]? with _ | ep
    · simp [obstacle, hep, reported]
    · by_cases hunreachable : ep.reachability = Reachability.UNREACHABLE
      · simp [obstacle, hep, hunreachable, reported]
      · by_cases hunverified : ep.reachability = Reachability.REVALIDATION_REQUIRED ∨ ep.reachability = Reachability.UNKNOWN
        · simp [obstacle, hep, hunreachable, hunverified, reported]
        · simp [obstacle, hep, hunreachable, hunverified, ih, degradedEndpoint, Bool.or_assoc]

theorem aggregate_reachability_eq (h : inst.endpoints ≠ []) : aggregate_reachability inst eps =
    reported (inst.endpoints.findSome? (obstacle eps)) (inst.endpoints.any (degradedEndpoint eps)) := by
  rw [aggregate_reachability, if_neg h, aggregateReachabilityLoop_eq, Bool.false_or]

end Registry

end RuntimeRegistry
