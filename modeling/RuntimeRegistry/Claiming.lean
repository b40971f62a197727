import RuntimeRegistry.Refusals
/-!
# The endpoints of a stored instance

A registration that passes its checks claims every endpoint that it lists, and the
instance is classified by the endpoints as they are claimed. `claimed` says what they
are without running the loop.
-/
open Lib

namespace RuntimeRegistry

namespace Registry

variable {r s t : Registry} {env : AuthorityEnvelope} {scan : List ServiceInstanceId} {inst : ServiceInstance}

/-- The endpoints once the instance has claimed one that it may claim. -/
def claimedEndpoint (id : ServiceInstanceId) (endpoints : Map .EndpointId EndpointDescriptor) (eid : EndpointId) :
    Map .EndpointId EndpointDescriptor :=
  match endpoints[eid]? with
  | some ep =>
    if ep.service_instance.value = 0 then endpoints.insert eid { ep with service_instance := id }
    else if ep.service_instance ≠ id then
      endpoints.insert eid { ep with
        service_instance := id, reachability := Reachability.REACHABLE, freshness := Freshness.CURRENT }
    else endpoints
  | none => endpoints

/-- The registry once the instance has claimed endpoints that it may claim. -/
def claimed (r : Registry) (id : ServiceInstanceId) (eids : List EndpointId) : Registry :=
  { r with endpoints := eids.foldl (claimedEndpoint id) r.endpoints }

/-- What one round of the loop leaves when it does not throw. -/
theorem claimEndpoint_ok {id : ServiceInstanceId} {eid : EndpointId} (h : r.claimEndpoint id eid = (.ok (), t)) :
    t = { r with endpoints := claimedEndpoint id r.endpoints eid } := by
  unfold claimEndpoint at h
  unfold claimedEndpoint
  rcases hep : r.endpoints[eid]? with _ | ep
  · rw [hep] at h
    cases h
  · rw [hep] at h
    dsimp only at h ⊢
    split_ifs at h ⊢ <;> cases h
    · rfl
    · rfl
    · rfl

theorem claimEndpoints_ok {id : ServiceInstanceId} {eids : List EndpointId} (h : r.claimEndpoints id eids = (.ok (), t)) :
    t = r.claimed id eids := by
  induction eids generalizing r with
  | nil =>
    cases h
    rfl
  | cons eid eids ih =>
    rw [claimEndpoints] at h
    rcases hc : r.claimEndpoint id eid with ⟨e | _, s⟩
    · rw [hc] at h
      cases h
    · rw [hc] at h
      rw [ih h, claimEndpoint_ok hc]
      rfl

/-- An instance that may claim its endpoints is bound and stored. -/
theorem bindInstance_claimed {copy : ServiceInstance} (h : ∀ eid ∈ copy.endpoints, r.claimable copy.instance_id eid) :
    r.bindInstance copy = (.ok copy.instance_id, (r.claimed copy.instance_id copy.endpoints).storeInstance copy) := by
  obtain ⟨t, ht⟩ := (claimEndpoints_ok_iff _ _ r).2 h
  rw [bindInstance, ht, Outcome.andThen_ok, claimEndpoints_ok ht]

/-- The state that an admissible instance is bound in: the current one is superseded. -/
def superseding (r : Registry) (scan : List ServiceInstanceId) (inst : ServiceInstance) : Registry :=
  match r.currentInstance scan inst.service_id with
  | some (id, current) => { r with next_id := r.assignedNext inst }.supersedeCurrent id current
  | none => { r with next_id := r.assignedNext inst }

/-- The registration reaches the loop over the endpoints: its service is registered,
and it is newer than the current record or, where there is none, not fenced. -/
def Opens (r : Registry) (scan : List ServiceInstanceId) (inst : ServiceInstance) : Prop :=
  inst.service_id ∈ r.services ∧
  match r.currentInstance scan inst.service_id with
  | some (_, current) => current.instance_generation < inst.instance_generation
  | none => ¬ r.covered_by_tombstone (text "ServiceId") (to_string inst.service_id.value) inst.instance_generation.value

/-- A registration that reaches the loop binds the instance. -/
theorem register_instance_opened (ha : r.Accepts env) (h : r.Opens scan inst) : r.register_instance scan inst env =
    (r.superseding scan inst).bindInstance { inst with instance_id := r.assignedId inst } := by
  obtain ⟨hservice, h⟩ := h
  unfold superseding
  apply register_instance_rule (P := fun o => o = _)
  case rejected => exact fun _ hnot => absurd ha hnot
  case unregistered => exact fun _ hnot => absurd hservice hnot
  case repeated =>
    intro _ _ id current hc hgen _
    rw [hc] at h
    exact absurd h hgen.not_gt
  case stale =>
    intro _ _ id current hc hle
    rw [hc] at h
    exact absurd h hle.not_gt
  case superseded =>
    intro _ _ id current hc _
    rw [hc]
  case fenced =>
    intro _ _ hc hcov
    rw [hc] at h
    exact absurd hcov h
  case first =>
    intro _ _ hc _
    rw [hc]

/-- An admissible registration reaches the loop and passes it. -/
theorem Admissible.opens (h : r.Admissible scan inst) :
    r.Opens scan inst ∧ ∀ eid ∈ inst.endpoints, (r.superseding scan inst).claimable (r.assignedId inst) eid := by
  obtain ⟨hservice, h⟩ := h
  unfold Opens superseding
  rcases hc : r.currentInstance scan inst.service_id with _ | ⟨id, current⟩
  · rw [hc] at h
    exact ⟨⟨hservice, h.1⟩, h.2⟩
  · rw [hc] at h
    exact ⟨⟨hservice, h.1⟩, h.2⟩

/-- An admissible registration returns the id and leaves the instance bound and stored. -/
theorem register_instance_admitted (ha : r.Accepts env) (hadm : r.Admissible scan inst) :
    r.register_instance scan inst env = (.ok (r.assignedId inst),
      ((r.superseding scan inst).claimed (r.assignedId inst) inst.endpoints).storeInstance
        { inst with instance_id := r.assignedId inst }) := by
  rw [register_instance_opened ha hadm.opens.1]
  exact bindInstance_claimed hadm.opens.2

theorem superseding_evidence (r : Registry) (scan : List ServiceInstanceId) (inst : ServiceInstance) :
    SameEvidence r (r.superseding scan inst) := by
  unfold superseding
  split
  · constructor <;> rfl
  · constructor <;> rfl

theorem SameEvidence.claimed (h : SameEvidence r s) (id : ServiceInstanceId) (eids : List EndpointId) :
    SameEvidence (r.claimed id eids) (s.claimed id eids) := by
  refine ⟨h.live_boots, h.services, ?_, h.capabilities, h.leases⟩
  unfold Registry.claimed
  rw [h.endpoints]

/-- The instance is classified by its endpoints as they are claimed. -/
theorem register_instance_evidence (ha : r.Accepts env) (hadm : r.Admissible scan inst) :
    SameEvidence (r.claimed (r.assignedId inst) inst.endpoints) (r.register_instance scan inst env).2 := by
  rw [register_instance_admitted ha hadm]
  exact ((r.superseding_evidence scan inst).claimed _ _).trans (storeInstance_evidence _ _)

end Registry

end RuntimeRegistry
