import RuntimeRegistry.Discovery
/-!
# The filters of a query

What each hard filter asks of an instance, in the terms of the record maps.
`Eligible` is their conjunction, without the filter on protocols: that one
rejects an instance for a protocol that is not compatible and ranks it all the
same, and it asks for no protocol in particular.
-/
open Lib

namespace RuntimeRegistry

namespace RegistryQuery

/-- The query has a requirement on protocols. -/
def AsksProtocol (q : RegistryQuery) : Prop := q.protocol_requirement.value ≠ 0 ∧ q.has_protocol_version = true

end RegistryQuery

namespace Registry

variable {r : Registry} {q : RegistryQuery} {inst : ServiceInstance} {svc : ServiceDescriptor}

/-! ## Protocols -/

/-- The instance lists a protocol that is stored. -/
def ListsProtocol (r : Registry) (inst : ServiceInstance) : Prop := ∃ pid ∈ inst.protocols, ∃ p, r.protocols[pid]? = some p

/-- The instance lists a stored protocol that the version of the query is
incompatible with. -/
def ListsIncompatible (r : Registry) (q : RegistryQuery) (inst : ServiceInstance) : Prop :=
  ∃ pid ∈ inst.protocols, ∃ p, r.protocols[pid]? = some p ∧
    negotiate_protocol q.protocol_version p.version false = .INCOMPATIBLE

/-- The instance lists the required protocol, which is stored in a version that
is not incompatible. -/
def SpeaksProtocol (r : Registry) (q : RegistryQuery) (inst : ServiceInstance) : Prop :=
  q.protocol_requirement ∈ inst.protocols ∧ ∃ p, r.protocols[q.protocol_requirement]? = some p ∧
    negotiate_protocol q.protocol_version p.version false ≠ .INCOMPATIBLE

theorem protocolLoop_incompatible (any_proto : Bool) (pids : List ProtocolId) :
    r.protocolLoop q any_proto pids = .incompatible ↔ ∃ pid ∈ pids, ∃ p, r.protocols[pid]? = some p ∧
      negotiate_protocol q.protocol_version p.version false = .INCOMPATIBLE := by
  induction pids generalizing any_proto with
  | nil => cases any_proto <;> simp [protocolLoop]
  | cons pid pids ih =>
    unfold protocolLoop
    rcases hp : r.protocols[pid]? with _ | p
    · simp [ih, hp]
    · by_cases hn : negotiate_protocol q.protocol_version p.version false = .INCOMPATIBLE <;> simp [ih, hp, hn]

theorem protocolLoop_noEvidence (any_proto : Bool) (pids : List ProtocolId) :
    r.protocolLoop q any_proto pids = .noEvidence ↔ any_proto = false ∧ ∀ pid ∈ pids, r.protocols[pid]? = none := by
  induction pids generalizing any_proto with
  | nil => cases any_proto <;> simp [protocolLoop]
  | cons pid pids ih =>
    rw [List.forall_mem_cons]
    unfold protocolLoop
    rcases r.protocols[pid]? with _ | p
    · simp only [ih, true_and]
    · by_cases hn : negotiate_protocol q.protocol_version p.version false = .INCOMPATIBLE <;> simp [ih, hn]

theorem protocolVerdict_incompatible :
    r.protocolVerdict q inst = .incompatible ↔ q.AsksProtocol ∧ r.ListsIncompatible q inst := by
  unfold protocolVerdict
  split_ifs with hq
  · exact (protocolLoop_incompatible _ _).trans ⟨fun h => ⟨hq, h⟩, fun h => h.2⟩
  · exact ⟨fun h => (by cases h), fun h => absurd h.1 hq⟩

theorem protocolVerdict_noEvidence :
    r.protocolVerdict q inst ≠ .noEvidence ↔ (q.AsksProtocol → r.ListsProtocol inst) := by
  unfold protocolVerdict
  split_ifs with hq
  · have hany : r.ListsProtocol inst ↔ ¬ ∀ pid ∈ inst.protocols, r.protocols[pid]? = none := by
      simp [ListsProtocol, ← Option.ne_none_iff_exists']
    rw [Ne, protocolLoop_noEvidence, hany]
    exact ⟨fun h _ hnone => h ⟨rfl, hnone⟩, fun h hnone => h hq hnone.2⟩
  · exact ⟨fun _ h => absurd h hq, fun _ h => (by cases h)⟩

/-! ## Capabilities, runtimes and versions -/

/-- Some listed capability is stored, has the kind and is current. -/
def HasCapability (r : Registry) (inst : ServiceInstance) (req : Enum CapabilityKind) : Prop :=
  ∃ cid ∈ inst.capabilities, ∃ cap, r.capabilities[cid]? = some cap ∧ cap.kind = req ∧ cap.freshness = Freshness.CURRENT

theorem capability_satisfaction_present (cap : CapabilityDescriptor) (req : Enum CapabilityKind) :
    capability_satisfaction cap req = -1 ↔ cap.kind = req ∧ cap.freshness = Freshness.CURRENT := by
  unfold capability_satisfaction
  split_ifs with hk hf <;> simp_all

theorem satisfactionLoop_present (req : Enum CapabilityKind) (sat : Int) (hsat : sat ≠ -1) (cids : List CapabilityId) :
    r.satisfactionLoop req sat cids = -1 ↔ ∃ cid ∈ cids, ∃ cap, r.capabilities[cid]? = some cap ∧ cap.kind = req ∧
      cap.freshness = Freshness.CURRENT := by
  induction cids generalizing sat with
  | nil => simpa [satisfactionLoop] using hsat
  | cons cid cids ih =>
    unfold satisfactionLoop
    rcases hc : r.capabilities[cid]? with _ | cap
    · simp [ih sat hsat, hc]
    · by_cases hs : capability_satisfaction cap req = -1
      · have hcap := (capability_satisfaction_present cap req).1 hs
        simp [hs, hc, hcap.1, hcap.2]
      · have hcap := mt (capability_satisfaction_present cap req).2 hs
        have hsat' : (if capability_satisfaction cap req = 0 then 0 else sat) ≠ -1 := by
          split_ifs
          · decide
          · exact hsat
        simp only [if_neg hs, ih _ hsat', List.mem_cons, exists_eq_or_imp, hc, Option.some.injEq]
        exact ⟨.inr, fun h => h.resolve_left fun ⟨_, he, h⟩ => hcap (he ▸ h)⟩

theorem rejectByCapability_none (reqs : List (Enum CapabilityKind)) :
    r.rejectByCapability inst reqs = none ↔ ∀ req ∈ reqs, r.HasCapability inst req := by
  induction reqs with
  | nil => simp [rejectByCapability]
  | cons req reqs ih =>
    have hone : r.HasCapability inst req ↔ r.satisfactionLoop req 1 inst.capabilities = -1 :=
      (satisfactionLoop_present req 1 (by decide) _).symm
    unfold rejectByCapability
    dsimp only
    rw [List.forall_mem_cons, hone, ← ih]
    split_ifs <;> simp_all

/-- What the filters ask of a runtime. -/
structure RuntimeAccepted (q : RegistryQuery) (rt : RuntimeDescriptor) : Prop where
  kind : q.runtime_kind ≠ RuntimeKind.UNKNOWN → rt.kind = q.runtime_kind
  family : q.runtime_family ≠ [] → rt.family = q.runtime_family
  architecture : q.architecture ≠ [] → rt.architecture = [] ∨ rt.architecture = q.architecture

theorem rejectByRuntime_none : r.rejectByRuntime q inst = none ↔
    ∀ rt, r.runtime_instances[inst.runtime_instance]? = some rt → RuntimeAccepted q rt := by
  unfold rejectByRuntime
  rcases hrt : r.runtime_instances[inst.runtime_instance]? with _ | rt
  · simp
  · simp only [ite_some_eq_none, not_and, not_not, and_true, Option.some.injEq, forall_eq']
    exact ⟨fun ⟨h₁, h₂, h₃⟩ => ⟨h₁, h₂, fun hq => or_iff_not_imp_left.2 (h₃ hq)⟩,
      fun h => ⟨h.kind, h.family, fun hq => or_iff_not_imp_left.1 (h.architecture hq)⟩⟩

theorem rejectByVersion_none : rejectByVersion q svc = none ↔
    (q.has_minimum_api = true → ¬ svc.api_version.compare q.minimum_api < 0) ∧
      (q.has_abi_requirement = true → svc.abi_version.major = q.abi_requirement.major) := by
  simp only [rejectByVersion, ite_some_eq_none, not_and, not_not, and_true]

/-! ## Eligibility -/

/-- The conjunction of the hard filters other than the one on protocols. -/
structure Eligible (r : Registry) (q : RegistryQuery) (inst : ServiceInstance) (svc : ServiceDescriptor) : Prop where
  stale : inst.lifecycle ≠ Lifecycle.STALE
  invalidated : inst.lifecycle ≠ Lifecycle.INVALIDATED
  tombstoned : inst.lifecycle ≠ Lifecycle.TOMBSTONED
  current : q.current_only = true → inst.lifecycle ≠ Lifecycle.SUPERSEDED ∧ inst.lifecycle ≠ Lifecycle.RETIRED
  live : r.authority.is_boot_live inst.boot = true
  freshness : freshness_meets inst.freshness q.required_freshness = true
  readiness : readiness_meets inst.readiness q.required_readiness = true
  health : health_meets inst.health q.required_health = true
  reachability : reachability_meets inst.reachability q.required_reachability = true
  lease : inst.lease.value = 0 ∨ ∃ lease, r.leases[inst.lease]? = some lease ∧ lease.state = LeaseState.ACTIVE
  capabilities : ∀ req ∈ q.required_capabilities, r.HasCapability inst req
  runtime : ∀ rt, r.runtime_instances[inst.runtime_instance]? = some rt → RuntimeAccepted q rt
  api : q.has_minimum_api = true → ¬ svc.api_version.compare q.minimum_api < 0
  abi : q.has_abi_requirement = true → svc.abi_version.major = q.abi_requirement.major

theorem leaseActive_iff (id : LeaseId) : r.leaseActive id = true ↔
    id.value = 0 ∨ ∃ lease, r.leases[id]? = some lease ∧ lease.state = LeaseState.ACTIVE := by
  unfold leaseActive
  rcases r.leases[id]? <;> simp

theorem passes_iff : r.Passes q inst svc ↔ r.Eligible q inst svc ∧ (q.AsksProtocol → r.ListsProtocol inst) := by
  have hreq : r.rejectByRequirement q svc inst = none ↔ r.rejectByCapability inst q.required_capabilities = none ∧
      r.rejectByRuntime q inst = none ∧ rejectByVersion q svc = none := by
    simp [rejectByRequirement]
  rw [rejectByCapability_none, rejectByRuntime_none, rejectByVersion_none] at hreq
  constructor
  · rintro ⟨hs, hp, hr⟩
    obtain ⟨hcap, hrt, hapi, habi⟩ := hreq.1 hr
    have hs := rejectByState_none.1 hs
    have hcurrent : q.current_only = true → inst.lifecycle ≠ Lifecycle.SUPERSEDED ∧ inst.lifecycle ≠ Lifecycle.RETIRED :=
      fun hq => by simpa [historical, hs.tombstoned, hs.invalidated] using hs.historical hq
    exact ⟨⟨hs.stale, hs.invalidated, hs.tombstoned, hcurrent, hs.live, hs.freshness, hs.readiness, hs.health,
      hs.reachability, (leaseActive_iff _).1 hs.lease, hcap, hrt, hapi, habi⟩, protocolVerdict_noEvidence.1 hp⟩
  · rintro ⟨he, hp⟩
    refine ⟨rejectByState_none.2 ?_, protocolVerdict_noEvidence.2 hp, hreq.2 ⟨he.capabilities, he.runtime, he.api, he.abi⟩⟩
    have hcurrent : q.current_only = true → historical inst.lifecycle = false :=
      fun hq => by simpa [historical, he.tombstoned, he.invalidated] using he.current hq
    exact ⟨hcurrent, he.stale, he.invalidated, he.tombstoned, he.live, he.freshness, (leaseActive_iff _).2 he.lease,
      he.readiness, he.health, he.reachability⟩

end Registry

end RuntimeRegistry
