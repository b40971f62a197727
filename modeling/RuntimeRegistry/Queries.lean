import RuntimeRegistry.Filters
/-!
# What a query returns

The result against the instances the query considers: which of them are ranked,
which are rejected, and what can be said of a ranked one.
-/
open Lib

namespace RuntimeRegistry

/-! Registries with an instance that lists a protocol, or a capability, and
queries for another version, for another protocol and for the capability. -/
namespace Sample

def protocol : ProtocolDescriptor := { protocol_id := ⟨8⟩, generation := ⟨1⟩, version := { major := 1 } }

def speaking : Registry := Registry.fresh.after [
  .adopt_worker ⟨1⟩, .register_service service env, .register_protocol protocol env,
  .register_instance { incarnation 5 1 with protocols := [⟨8⟩] } env]

theorem speaking_reachable : speaking.Reachable := Registry.Reachable.after (.refl _) _

def otherVersion : RegistryQuery where
  protocol_requirement := ⟨8⟩
  protocol_version := { major := 2 }
  has_protocol_version := true

def otherProtocol : RegistryQuery where
  protocol_requirement := ⟨9⟩
  protocol_version := { major := 1 }
  has_protocol_version := true

def serving : RegistryQuery := { runtime_kind := RuntimeKind.SERVING_RUNTIME }

def capability (value : CapabilityValue) : CapabilityDescriptor where
  capability_id := ⟨7⟩
  kind := CapabilityKind.MULTIPROCESS
  generation := ⟨1⟩
  value := value
  freshness := Freshness.CURRENT

end Sample

namespace Registry

variable {r : Registry} {q : RegistryQuery} {scan : List ServiceInstanceId}

/-! ## Ranked or rejected -/

/-- The result has one entry for each considered instance and none for another. -/
structure Partitions (r : Registry) (q : RegistryQuery) (res : RegistryResult) : Prop where
  once : ∀ id inst svc, r.Considered q id inst svc → res.rankedIds.count id + res.rejectedIds.count id = 1
  others : ∀ id, (∀ inst svc, ¬ r.Considered q id inst svc) → id ∉ res.rankedIds ∧ id ∉ res.rejectedIds
  total : res.total_considered = res.ranked.length + res.rejected.length

theorem length_ranked (r : Registry) (scan : List ServiceInstanceId) (q : RegistryQuery) :
    (r.query scan q).ranked.length = (scan.map fun id => (r.trace q id).ranked.length).sum := by
  have h := (query_rankedIds r scan q).length_eq
  rwa [RegistryResult.rankedIds, List.length_map, List.length_map, scores, List.length_flatMap] at h

theorem length_rejected (r : Registry) (scan : List ServiceInstanceId) (q : RegistryQuery) :
    (r.query scan q).rejected.length = (scan.map fun id => (r.trace q id).rejected.length).sum := by
  rw [query_rejected, List.length_flatMap]

/-- The instance is rejected for its protocol, and goes on to the later filters. -/
def GoesOn (r : Registry) (q : RegistryQuery) (inst : ServiceInstance) : Prop :=
  r.StateAccepted q inst ∧ q.AsksProtocol ∧ r.ListsIncompatible q inst

theorem trace_entries {id : ServiceInstanceId} {inst : ServiceInstance} {svc : ServiceDescriptor}
    (h : r.Considered q id inst svc) :
    (r.trace q id).ranked.length + (r.trace q id).rejected.length = 1 ↔ ¬ r.GoesOn q inst := by
  have hgoes : r.GoesOn q inst ↔ r.rejectByState q inst = none ∧ r.protocolVerdict q inst = .incompatible := by
    rw [rejectByState_none, protocolVerdict_incompatible, GoesOn]
  rw [(trace_rejected h).2, hgoes]
  split_ifs with hc <;> simp [hc]

/-- A query partitions what it considers if no considered instance is rejected for
a protocol after the state filters accepted it, and only then. -/
theorem query_partitions_iff (h : r.Reachable) (hscan : scan.Perm r.instances.keys) :
    r.Partitions q (r.query scan q) ↔ ∀ id inst svc, r.Considered q id inst svc → ¬ r.GoesOn q inst := by
  have hkey := wellKeyed_reachable h
  constructor
  · intro hp id inst svc hc
    have hone := hp.once id inst svc hc
    rw [count_rankedIds hkey hscan, count_rejectedIds hkey hscan, if_pos (mem_scan hscan hc.stored),
      if_pos (mem_scan hscan hc.stored)] at hone
    exact (trace_entries hc).1 hone
  · intro hno
    refine ⟨?once, ?others, ?total⟩
    case once =>
      intro id inst svc hc
      rw [count_rankedIds hkey hscan, count_rejectedIds hkey hscan, if_pos (mem_scan hscan hc.stored),
        if_pos (mem_scan hscan hc.stored)]
      exact (trace_entries hc).2 (hno id inst svc hc)
    case others =>
      intro id hc
      obtain ⟨_, hrej, hrank⟩ := trace_not_considered hc
      rw [← List.count_eq_zero, ← List.count_eq_zero, count_rankedIds hkey hscan, count_rejectedIds hkey hscan]
      simp [hrej, hrank]
    case total =>
      rw [query_total, length_ranked, length_rejected, ← List.sum_map_add]
      congr 1
      refine List.map_congr_left fun id _ => ?_
      by_cases hc : ∃ inst svc, r.Considered q id inst svc
      · obtain ⟨inst, svc, hc⟩ := hc
        rw [trace_total hc, (trace_entries hc).2 (hno id inst svc hc)]
      · obtain ⟨htotal, hrej, hrank⟩ := trace_not_considered fun inst svc h => hc ⟨inst, svc, h⟩
        simp [htotal, hrej, hrank]

theorem query_partitions_iff_sample :
    Sample.registry.Partitions {} (Sample.registry.query Sample.registry.instances.keys {}) ↔
      ∀ id inst svc, Sample.registry.Considered {} id inst svc → ¬ Sample.registry.GoesOn {} inst :=
  query_partitions_iff Sample.registry_reachable.reachable (.refl _)

/-- The instance of the sample is ranked and rejected. -/
theorem query_ranks_rejected : Sample.speaking.Reachable ∧
    ¬ Sample.speaking.Partitions Sample.otherVersion
      (Sample.speaking.query Sample.speaking.instances.keys Sample.otherVersion) := by
  refine ⟨Sample.speaking_reachable, fun h => ?_⟩
  have hranked : (Sample.speaking.query Sample.speaking.instances.keys Sample.otherVersion).rankedIds = [⟨5⟩] := by
    decide +kernel
  have hrejected : (Sample.speaking.query Sample.speaking.instances.keys Sample.otherVersion).rejectedIds = [⟨5⟩] := by
    decide +kernel
  by_cases hc : ∃ inst svc, Sample.speaking.Considered Sample.otherVersion ⟨5⟩ inst svc
  · obtain ⟨inst, svc, hc⟩ := hc
    have hone := h.once _ _ _ hc
    rw [hranked, hrejected] at hone
    exact absurd hone (by decide)
  · have hnot := (h.others ⟨5⟩ fun inst svc hc' => hc ⟨inst, svc, hc'⟩).1
    rw [hranked] at hnot
    exact hnot (by decide)

/-! ## What is ranked -/

/-- Among the considered instances, the ranked ones are those that pass. -/
theorem considered_ranked (h : r.Reachable) (hscan : scan.Perm r.instances.keys) {id : ServiceInstanceId}
    {inst : ServiceInstance} {svc : ServiceDescriptor} (hc : r.Considered q id inst svc) :
    id ∈ (r.query scan q).rankedIds ↔ r.Eligible q inst svc ∧ (q.AsksProtocol → r.ListsProtocol inst) := by
  rw [mem_rankedIds (wellKeyed_reachable h) hscan, ← passes_iff]
  refine ⟨fun ⟨inst', svc', hc', hp⟩ => ?_, fun hp => ⟨inst, svc, hc, hp⟩⟩
  obtain rfl : inst' = inst := Option.some.inj (hc'.stored.symm.trans hc.stored)
  obtain rfl : svc' = svc := Option.some.inj (hc'.registered.symm.trans hc.registered)
  exact hp

/-- What holds of every ranked instance: what holds of the considered ones that pass. -/
theorem forall_ranked (h : r.Reachable) (hscan : scan.Perm r.instances.keys) (P : ServiceInstance → Prop) :
    (∀ id ∈ (r.query scan q).rankedIds, ∃ inst, r.instances[id]? = some inst ∧ P inst) ↔
      ∀ id inst svc, r.Considered q id inst svc → r.Eligible q inst svc → (q.AsksProtocol → r.ListsProtocol inst) →
        P inst := by
  constructor
  · intro hall id inst svc hc he hp
    obtain ⟨inst', hi, hP⟩ := hall id ((considered_ranked h hscan hc).2 ⟨he, hp⟩)
    obtain rfl : inst' = inst := Option.some.inj (hi.symm.trans hc.stored)
    exact hP
  · intro hall id hid
    obtain ⟨inst, svc, hc, hp⟩ := (mem_rankedIds (wellKeyed_reachable h) hscan).1 hid
    obtain ⟨he, hp⟩ := passes_iff.1 hp
    exact ⟨inst, hc.stored, hall id inst svc hc he hp⟩

/-- Without a requirement on protocols, a considered instance is ranked if it is
eligible, and only then. -/
theorem ranked_iff_eligible (h : r.Reachable) (hscan : scan.Perm r.instances.keys) (hq : ¬ q.AsksProtocol)
    {id : ServiceInstanceId} {inst : ServiceInstance} {svc : ServiceDescriptor} (hc : r.Considered q id inst svc) :
    id ∈ (r.query scan q).rankedIds ↔ r.Eligible q inst svc := by
  rw [considered_ranked h hscan hc]
  exact ⟨fun he => he.1, fun he => ⟨he, fun hask => absurd hask hq⟩⟩

theorem ranked_iff_eligible_sample : ∃ inst svc, Sample.registry.Considered {} ⟨5⟩ inst svc ∧
    (⟨5⟩ ∈ (Sample.registry.query Sample.registry.instances.keys {}).rankedIds ↔
      Sample.registry.Eligible {} inst svc) := by
  have hstored : ∃ inst ∈ Sample.registry.instances[(⟨5⟩ : ServiceInstanceId)]?,
      Sample.registry.services[inst.service_id]?.isSome := by decide +kernel
  obtain ⟨inst, hi, hs⟩ := hstored
  obtain ⟨svc, hs⟩ := Option.isSome_iff_exists.1 hs
  have hc : Sample.registry.Considered {} ⟨5⟩ inst svc := ⟨hi, hs, fun h => absurd rfl h, fun h => absurd rfl h⟩
  exact ⟨inst, svc, hc, ranked_iff_eligible Sample.registry_reachable.reachable (.refl _) (fun h => absurd rfl h.1) hc⟩

/-- Every ranked instance speaks the required protocol if the eligible ones that
list any stored protocol do, and only then: the filter asks for no more. -/
theorem ranked_speaks_protocol_iff (h : r.Reachable) (hscan : scan.Perm r.instances.keys) (hq : q.AsksProtocol) :
    (∀ id ∈ (r.query scan q).rankedIds, ∃ inst, r.instances[id]? = some inst ∧ r.SpeaksProtocol q inst) ↔
      ∀ id inst svc, r.Considered q id inst svc → r.Eligible q inst svc → r.ListsProtocol inst →
        r.SpeaksProtocol q inst := by
  rw [forall_ranked h hscan]
  exact ⟨fun hall id inst svc hc he hp => hall id inst svc hc he fun _ => hp,
    fun hall id inst svc hc he hp => hall id inst svc hc he (hp hq)⟩

theorem ranked_speaks_protocol_sample :
    (∀ id ∈ (Sample.speaking.query Sample.speaking.instances.keys Sample.otherProtocol).rankedIds, ∃ inst,
        Sample.speaking.instances[id]? = some inst ∧ Sample.speaking.SpeaksProtocol Sample.otherProtocol inst) ↔
      ∀ id inst svc, Sample.speaking.Considered Sample.otherProtocol id inst svc →
        Sample.speaking.Eligible Sample.otherProtocol inst svc → Sample.speaking.ListsProtocol inst →
        Sample.speaking.SpeaksProtocol Sample.otherProtocol inst :=
  ranked_speaks_protocol_iff Sample.speaking_reachable (.refl _) ⟨by decide, rfl⟩

/-- An instance that does not list the required protocol is ranked. -/
theorem ranked_speaks_other_protocol : Sample.speaking.Reachable ∧ Sample.otherProtocol.AsksProtocol ∧
    ⟨5⟩ ∈ (Sample.speaking.query Sample.speaking.instances.keys Sample.otherProtocol).rankedIds ∧
    ¬ ∃ inst, Sample.speaking.instances[(⟨5⟩ : ServiceInstanceId)]? = some inst ∧
      Sample.speaking.SpeaksProtocol Sample.otherProtocol inst := by
  refine ⟨Sample.speaking_reachable, ⟨by decide, rfl⟩, by decide +kernel, fun ⟨inst, hi, hs⟩ => ?_⟩
  have hlist : ∀ inst ∈ Sample.speaking.instances[(⟨5⟩ : ServiceInstanceId)]?, ⟨9⟩ ∉ inst.protocols := by decide +kernel
  exact hlist inst hi hs.1

/-- The values that do not affirm a capability: unknown and false. -/
def negative : List CapabilityValue := [{}, { kind := CapabilityValueKind.BOOLEAN, boolean := false }]

/-- The runtime instance is stored and is what the query asks for. -/
def RuntimeMatches (r : Registry) (q : RegistryQuery) (inst : ServiceInstance) : Prop :=
  ∃ rt, r.runtime_instances[inst.runtime_instance]? = some rt ∧
    (q.runtime_kind ≠ RuntimeKind.UNKNOWN → rt.kind = q.runtime_kind) ∧
    (q.runtime_family ≠ [] → rt.family = q.runtime_family) ∧ (q.architecture ≠ [] → rt.architecture = q.architecture)

/-- The runtime instance is not stored, or its architecture is not known where
the query asks for one. -/
def RuntimeUnknown (r : Registry) (q : RegistryQuery) (inst : ServiceInstance) : Prop :=
  ∀ rt, r.runtime_instances[inst.runtime_instance]? = some rt → q.architecture ≠ [] ∧ rt.architecture = []

theorem Eligible.runtimeMatches {inst : ServiceInstance} {svc : ServiceDescriptor} (h : r.Eligible q inst svc) :
    r.RuntimeMatches q inst ↔ ¬ r.RuntimeUnknown q inst := by
  unfold RuntimeMatches RuntimeUnknown
  rcases hrt : r.runtime_instances[inst.runtime_instance]? with _ | rt
  · simp
  · have ha := h.runtime rt hrt
    simp only [Option.some.injEq, exists_eq_left', forall_eq', not_and]
    constructor
    · intro ⟨_, _, harch⟩ hq hempty
      exact hq ((harch hq).symm.trans hempty)
    · intro harch
      exact ⟨ha.kind, ha.family, fun hq => (ha.architecture hq).resolve_left (harch hq)⟩

/-- Every ranked instance has the runtime the query asks for if no eligible one is
without evidence of its runtime, and only then. -/
theorem ranked_runtime_iff (h : r.Reachable) (hscan : scan.Perm r.instances.keys) :
    (∀ id ∈ (r.query scan q).rankedIds, ∃ inst, r.instances[id]? = some inst ∧ r.RuntimeMatches q inst) ↔
      ∀ id inst svc, r.Considered q id inst svc → r.Eligible q inst svc → (q.AsksProtocol → r.ListsProtocol inst) →
        ¬ r.RuntimeUnknown q inst := by
  rw [forall_ranked h hscan]
  exact ⟨fun hall id inst svc hc he hp => he.runtimeMatches.1 (hall id inst svc hc he hp),
    fun hall id inst svc hc he hp => he.runtimeMatches.2 (hall id inst svc hc he hp)⟩

theorem ranked_runtime_sample :
    (∀ id ∈ (Sample.registry.query Sample.registry.instances.keys Sample.serving).rankedIds, ∃ inst,
        Sample.registry.instances[id]? = some inst ∧ Sample.registry.RuntimeMatches Sample.serving inst) ↔
      ∀ id inst svc, Sample.registry.Considered Sample.serving id inst svc →
        Sample.registry.Eligible Sample.serving inst svc →
        (Sample.serving.AsksProtocol → Sample.registry.ListsProtocol inst) →
        ¬ Sample.registry.RuntimeUnknown Sample.serving inst :=
  ranked_runtime_iff Sample.registry_reachable.reachable (.refl _)

/-- An instance whose runtime is not registered is ranked for a kind of runtime. -/
theorem ranked_runtime_unregistered : Sample.registry.Reachable ∧
    ⟨5⟩ ∈ (Sample.registry.query Sample.registry.instances.keys Sample.serving).rankedIds ∧
    ¬ ∃ inst, Sample.registry.instances[(⟨5⟩ : ServiceInstanceId)]? = some inst ∧
      Sample.registry.RuntimeMatches Sample.serving inst := by
  refine ⟨Sample.registry_reachable.reachable, by decide +kernel, fun ⟨inst, hi, rt, hrt, _⟩ => ?_⟩
  have hnone : ∀ inst ∈ Sample.registry.instances[(⟨5⟩ : ServiceInstanceId)]?,
      Sample.registry.runtime_instances[inst.runtime_instance]? = none := by decide +kernel
  rw [hnone inst hi] at hrt
  cases hrt

end Registry

end RuntimeRegistry
