import RuntimeRegistry.Indexes
import RuntimeRegistry.Loading
import RuntimeRegistry.Revalidation
/-!
# What a loaded registry may still hold

`load_from` checks the length of what it reads, the kind of a service and the
identity of a record, and nothing else. The loaded registry passes the check of
the invariants, names every enumerator and keeps every generation below its
counter if the records of the image do, up to the fields that recovery writes over.
-/
open Lib Lib.Table

namespace RuntimeRegistry

/-! ## Enumerators -/

mutual
/-- At every depth the kind of a value is an enumerator. -/
def CapabilityValue.EnumsNamed : CapabilityValue → Prop
  | ⟨kind, _, _, _, _, _, _, _, _, structured⟩ => kind.Named ∧ EntriesEnumsNamed structured

def EntriesEnumsNamed : List (Text × CapabilityValue) → Prop
  | [] => True
  | (_, v) :: entries => v.EnumsNamed ∧ EntriesEnumsNamed entries
end

def ServiceDescriptor.EnumsNamed (s : ServiceDescriptor) : Prop :=
  s.kind.Named ∧ s.lifecycle.Named ∧ (∀ k ∈ s.required_capabilities, k.Named) ∧
    (∀ k ∈ s.optional_capabilities, k.Named) ∧ s.provenance.kind.Named

def ServiceInstance.EnumsNamed (i : ServiceInstance) : Prop :=
  i.health.Named ∧ i.readiness.Named ∧ i.freshness.Named ∧ i.reachability.Named ∧ i.lifecycle.Named ∧
    i.provenance.kind.Named

def EndpointDescriptor.EnumsNamed (e : EndpointDescriptor) : Prop :=
  e.transport.Named ∧ e.security.Named ∧ e.health.Named ∧ e.reachability.Named ∧ e.freshness.Named ∧
    e.provenance.kind.Named

def CapabilityDescriptor.EnumsNamed (c : CapabilityDescriptor) : Prop :=
  c.kind.Named ∧ c.value.EnumsNamed ∧ c.freshness.Named ∧ c.provenance.kind.Named

def LeaseDescriptor.EnumsNamed (l : LeaseDescriptor) : Prop :=
  l.renewal_policy.Named ∧ l.state.Named ∧ l.provenance.kind.Named

/-- Every field of an enumeration type is one of the enumerators. -/
def enumsNamed : RecordCondition where
  service _ x := x.EnumsNamed
  inst _ x := x.EnumsNamed
  runtime _ x := x.kind.Named ∧ x.provenance.kind.Named
  runtimeInstance _ x := x.kind.Named ∧ x.provenance.kind.Named
  endpoint _ x := x.EnumsNamed
  protocol _ x := (∀ k ∈ x.required_capabilities, k.Named) ∧ x.provenance.kind.Named
  backend _ x := x.kind.Named ∧ x.health.Named ∧ x.readiness.Named ∧ x.freshness.Named ∧ x.provenance.kind.Named
  device _ x := x.freshness.Named ∧ x.health.Named ∧ x.provenance.kind.Named
  capability _ x := x.EnumsNamed
  node _ x := x.health.Named ∧ x.readiness.Named ∧ x.freshness.Named ∧ x.reachability.Named ∧ x.provenance.kind.Named
  lease _ x := x.EnumsNamed
  tombstone _ x := x.provenance.kind.Named
  compat _ x := x.outcome.Named ∧ x.freshness.Named ∧ x.provenance.kind.Named
  invalidation x := x.provenance.kind.Named

/-- The lifecycles in which recovery asks for a new observation. -/
def ServiceInstance.Observed (i : ServiceInstance) : Prop :=
  i.lifecycle = Lifecycle.AVAILABLE ∨ i.lifecycle = Lifecycle.DEGRADED ∨ i.lifecycle = Lifecycle.UNREADY

/-- The fields that recovery does not write over are enumerators. -/
def ServiceInstance.KeptEnumsNamed (i : ServiceInstance) : Prop :=
  i.health.Named ∧ i.readiness.Named ∧ i.lifecycle.Named ∧ i.provenance.kind.Named ∧
    (¬ i.Observed → i.freshness.Named ∧ i.reachability.Named)

/-- The fields that recovery does not write over are enumerators. -/
def EndpointDescriptor.KeptEnumsNamed (e : EndpointDescriptor) : Prop :=
  e.transport.Named ∧ e.security.Named ∧ e.health.Named ∧ e.provenance.kind.Named ∧
    (¬ e.Observed → e.reachability.Named) ∧
    (¬ (e.transport = TransportKind.IN_PROCESS ∨ e.transport = TransportKind.LOCAL_IPC) → e.freshness.Named)

/-- No generation lies above the counter of its domain. A tombstone has a floor and
no generation of its own. -/
def generationsBelow (a : RegistryAuthority) : RecordCondition where
  service _ x := x.generation ≤ a.service_gen
  inst _ x := x.instance_generation ≤ a.instance_gen
  runtime _ x := x.generation ≤ a.runtime_gen
  runtimeInstance _ x := x.generation ≤ a.runtime_gen
  endpoint _ x := x.generation ≤ a.endpoint_gen
  protocol _ x := x.generation ≤ a.protocol_gen
  backend _ x := x.generation ≤ a.backend_gen
  device _ x := x.generation ≤ a.device_gen
  capability _ x := x.generation ≤ a.capability_gen
  node _ x := x.generation ≤ a.node_gen
  lease _ x := x.generation ≤ a.lease_gen
  tombstone _ _ := True
  compat _ x := x.generation ≤ a.compat_gen
  invalidation x := x.generation ≤ a.record_generation

namespace Registry

variable {r t : Registry} {data : List UInt8}

/-- A registry as a load should leave it. -/
structure Valid (t : Registry) : Prop where
  invariants : t.NoViolations
  enums : enumsNamed.Holds t
  generations : (generationsBelow t.authority).Holds t

/-- The records of an image are in order: every instance refers to records of the
image, what recovery keeps of the enumerations is named, and no generation lies
above its counter. -/
structure Sound (r : Registry) : Prop where
  services : All (fun _ inst => inst.service_id ∈ r.services) r.instances
  endpoints : All (fun _ inst => ∀ eid ∈ inst.endpoints, eid ∈ r.endpoints) r.instances
  instance_enums : All (fun _ inst => inst.KeptEnumsNamed) r.instances
  endpoint_enums : All (fun _ ep => ep.KeptEnumsNamed) r.endpoints
  other_enums : enumsNamed.Holds { r with instances := ∅, endpoints := ∅ }
  generations : (generationsBelow r.authority).Holds r

/-! ## What recovery does to a record -/

theorem revalidateInstance_enums (inst : ServiceInstance) :
    (revalidateInstance inst).EnumsNamed ↔ inst.KeptEnumsNamed := by
  by_cases h : inst.Observed
  · have hkept : (revalidateInstance inst).EnumsNamed ↔ inst.health.Named ∧ inst.readiness.Named ∧ inst.provenance.kind.Named := by
      simp only [ServiceInstance.Observed] at h
      simp only [revalidateInstance, if_pos h]
      split_ifs with ha
      · simp [ServiceInstance.EnumsNamed, Enum.named_named]
      · simp [ServiceInstance.EnumsNamed, Enum.named_named, (h.resolve_left (mt .inl ha)).resolve_left (mt .inr ha)]
    have hlifecycle : inst.lifecycle.Named := by
      rcases h with h | h | h <;> rw [h] <;> exact Enum.named_named _
    simp [hkept, ServiceInstance.KeptEnumsNamed, hlifecycle, h]
  · have hsame : revalidateInstance inst = { inst with updated_ms := 0 } := by
      simp only [ServiceInstance.Observed] at h
      simp only [revalidateInstance, if_neg h]
    rw [hsame]
    simp only [ServiceInstance.EnumsNamed, ServiceInstance.KeptEnumsNamed, h, not_false_eq_true, forall_true_left]
    tauto

theorem revalidateEndpoint_enums (ep : EndpointDescriptor) :
    (revalidateEndpoint ep).EnumsNamed ↔ ep.KeptEnumsNamed := by
  have hnamed : Enum.Named (ε := Freshness) Freshness.REVALIDATION_REQUIRED := Enum.named_named _
  unfold revalidateEndpoint EndpointDescriptor.KeptEnumsNamed EndpointDescriptor.Observed
  split_ifs with hlocal htcp
  · simp only [EndpointDescriptor.EnumsNamed, Enum.named_named]
    tauto
  · simp only [EndpointDescriptor.EnumsNamed, Enum.named_named]
    tauto
  · simp only [EndpointDescriptor.EnumsNamed]
    tauto

theorem revalidateCapability_enums (cap : CapabilityDescriptor) :
    (revalidateCapability cap).EnumsNamed ↔ cap.EnumsNamed := by
  unfold revalidateCapability
  split_ifs with h
  · simp [CapabilityDescriptor.EnumsNamed, Enum.named_named, h.1]
  · rfl

theorem revalidateLease_enums (lease : LeaseDescriptor) : (revalidateLease lease).EnumsNamed ↔ lease.EnumsNamed := by
  unfold revalidateLease
  split_ifs with h
  · simp [LeaseDescriptor.EnumsNamed, Enum.named_named, h]
  · rfl

theorem revalidateInstance_references (inst : ServiceInstance) :
    (revalidateInstance inst).service_id = inst.service_id ∧ (revalidateInstance inst).endpoints = inst.endpoints := by
  unfold revalidateInstance
  split_ifs <;> exact ⟨rfl, rfl⟩

/-! ## The recovered registry -/

theorem recovered_noViolations_iff (hkey : wellKeyed.Holds r.recovered) :
    r.recovered.NoViolations ↔ All (fun _ inst => inst.service_id ∈ r.services) r.instances ∧
      All (fun _ inst => ∀ eid ∈ inst.endpoints, eid ∈ r.endpoints) r.instances := by
  rw [noViolations_iff r.rebuild_indexes_recovered hkey]
  obtain ⟨_, _, _, _, _, hw⟩ := r.recovered_writes
  have hreferenced : ∀ inst, r.recovered.Referenced (revalidateInstance inst) ↔
      inst.service_id ∈ r.services ∧ ∀ eid ∈ inst.endpoints, eid ∈ r.endpoints := by
    intro inst
    obtain ⟨hservice, hendpoints⟩ := revalidateInstance_references inst
    have hs : r.recovered.services = r.services := by rw [hw]
    have he : ∀ eid, eid ∈ r.recovered.endpoints ↔ eid ∈ r.endpoints := by
      intro eid
      rw [hw]
      exact Std.ExtTreeMap.mem_map
    refine ⟨fun h => ⟨?_, ?_⟩, fun h => ⟨?_, ?_, ?_⟩⟩
    · rw [← hs, ← hservice]
      exact h.service
    · intro eid heid
      rw [← hendpoints] at heid
      exact (he eid).1 (h.endpoints eid heid)
    · rw [hs, hservice]
      exact h.1
    · intro eid heid
      rw [hendpoints] at heid
      exact (he eid).2 (h.2 eid heid)
    · intro ha
      exact absurd ha (revalidateInstance_lifecycle inst).1
  have hi : r.recovered.instances = r.instances.map fun _ => revalidateInstance := by rw [hw]
  rw [hi, All.map_iff]
  simp only [hreferenced]
  exact ⟨fun h => ⟨fun k x hx => (h k x hx).1, fun k x hx => (h k x hx).2⟩, fun h k x hx => ⟨h.1 k x hx, h.2 k x hx⟩⟩

theorem recovered_enums_iff : enumsNamed.Holds r.recovered ↔
    All (fun _ inst => inst.KeptEnumsNamed) r.instances ∧ All (fun _ ep => ep.KeptEnumsNamed) r.endpoints ∧
      enumsNamed.Holds { r with instances := ∅, endpoints := ∅ } := by
  obtain ⟨_, _, _, _, _, hw⟩ := r.recovered_writes
  rw [hw]
  constructor
  · intro h
    refine ⟨?_, ?_, { h with instances := All.empty _, endpoints := All.empty _, capabilities := ?_, leases := ?_ }⟩
    · exact (All.map_iff.1 h.instances).mono fun _ inst => (revalidateInstance_enums inst).1
    · exact (All.map_iff.1 h.endpoints).mono fun _ ep => (revalidateEndpoint_enums ep).1
    · exact (All.map_iff.1 h.capabilities).mono fun _ cap => (revalidateCapability_enums cap).1
    · exact (All.map_iff.1 h.leases).mono fun _ lease => (revalidateLease_enums lease).1
  · rintro ⟨hi, he, h⟩
    exact { h with
      instances := All.map_iff.2 (hi.mono fun _ inst => (revalidateInstance_enums inst).2)
      endpoints := All.map_iff.2 (he.mono fun _ ep => (revalidateEndpoint_enums ep).2)
      capabilities := All.map_iff.2 (h.capabilities.mono fun _ cap => (revalidateCapability_enums cap).2)
      leases := All.map_iff.2 (h.leases.mono fun _ lease => (revalidateLease_enums lease).2) }

theorem recovered_generations_iff :
    (generationsBelow r.recovered.authority).Holds r.recovered ↔ (generationsBelow r.authority).Holds r := by
  obtain ⟨_, _, _, _, _, hw⟩ := r.recovered_writes
  generalize hbelow : generationsBelow r.authority = I
  have hcounters : generationsBelow r.recovered.authority = I := by
    rw [hw, ← hbelow]
    rfl
  -- no generation is written over
  have hi : ∀ k x, I.inst k (revalidateInstance x) ↔ I.inst k x := by
    intro k x
    simp only [← hbelow, generationsBelow, revalidateInstance]
    split_ifs <;> rfl
  have he : ∀ k x, I.endpoint k (revalidateEndpoint x) ↔ I.endpoint k x := by
    intro k x
    simp only [← hbelow, generationsBelow, revalidateEndpoint]
    split_ifs <;> rfl
  have hc : ∀ k x, I.capability k (revalidateCapability x) ↔ I.capability k x := by
    intro k x
    simp only [← hbelow, generationsBelow, revalidateCapability]
    split_ifs <;> rfl
  have hl : ∀ k x, I.lease k (revalidateLease x) ↔ I.lease k x := by
    intro k x
    simp only [← hbelow, generationsBelow, revalidateLease]
    split_ifs <;> rfl
  rw [hcounters, hw]
  constructor
  · intro h
    refine { h with instances := ?_, endpoints := ?_, capabilities := ?_, leases := ?_ }
    · exact (All.map_iff.1 h.instances).mono fun k x => (hi k x).1
    · exact (All.map_iff.1 h.endpoints).mono fun k x => (he k x).1
    · exact (All.map_iff.1 h.capabilities).mono fun k x => (hc k x).1
    · exact (All.map_iff.1 h.leases).mono fun k x => (hl k x).1
  · intro h
    refine { h with instances := ?_, endpoints := ?_, capabilities := ?_, leases := ?_ }
    · exact All.map_iff.2 (h.instances.mono fun k x => (hi k x).2)
    · exact All.map_iff.2 (h.endpoints.mono fun k x => (he k x).2)
    · exact All.map_iff.2 (h.capabilities.mono fun k x => (hc k x).2)
    · exact All.map_iff.2 (h.leases.mono fun k x => (hl k x).2)

theorem recovered_valid_iff (hkey : wellKeyed.Holds r.recovered) : r.recovered.Valid ↔ r.Sound := by
  constructor
  · rintro ⟨hinv, henums, hgens⟩
    obtain ⟨hs, he⟩ := (recovered_noViolations_iff hkey).1 hinv
    obtain ⟨hi, hep, hrest⟩ := recovered_enums_iff.1 henums
    exact ⟨hs, he, hi, hep, hrest, recovered_generations_iff.1 hgens⟩
  · rintro ⟨hs, he, hi, hep, hrest, hgens⟩
    exact ⟨(recovered_noViolations_iff hkey).2 ⟨hs, he⟩, recovered_enums_iff.2 ⟨hi, hep, hrest⟩,
      recovered_generations_iff.2 hgens⟩

/-- The loaded registry is valid if the records of the accepted image are in order,
and only then. -/
theorem load_from_valid_iff (h : (r.load_from data).Returns) :
    (r.load_from data).2.Valid ↔ (imageRegistry data).Sound := by
  obtain ⟨ha, hc⟩ := (load_from_returns_iff r data).1 h
  have hkey := (imageRegistry_readable ha).recovered.keyed
  rw [load_from_accepted ha hc r]
  exact recovered_valid_iff hkey

/-- Such an image is accepted. -/
theorem load_from_valid_sample :
    (fresh.load_from Sample.registry.serialize).2.Valid ↔ (imageRegistry Sample.registry.serialize).Sound :=
  load_from_valid_iff (by rw [load_from_serialize_restore sample_readable]; exact Outcome.returns_ok _ _)

end Registry

/-! A registry with one instance, of no registered service, with an unnamed health
and a generation above its counter. -/
namespace Sample

def orphan : ServiceInstance where
  instance_id := ⟨5⟩
  service_id := ⟨3⟩
  instance_generation := ⟨1⟩
  health := Enum.ofByte 99

def orphanage : Registry := { Registry.fresh with instances := Registry.fresh.instances.insert ⟨5⟩ orphan }

theorem orphanage_readable : orphanage.Readable where
  keyed := { RecordCondition.holds_fresh _ with instances := (RecordCondition.holds_fresh wellKeyed).instances.insert rfl }
  texts := { RecordCondition.holds_fresh _ with
    instances := (RecordCondition.holds_fresh textsFit).instances.insert (by
      simp [textsFit, orphan, Text.Fits, ServiceInstance.TextsFit, SemanticVersion.TextsFit, Provenance.TextsFit]) }
  lists := { RecordCondition.holds_fresh _ with
    instances := (RecordCondition.holds_fresh listsFit).instances.insert (by
      simp [listsFit, orphan, ServiceInstance.ListsFit]) }
  kinds := { RecordCondition.holds_fresh _ with instances := (RecordCondition.holds_fresh kindsNamed).instances.insert trivial }
  sizes := by constructor <;> decide +kernel

end Sample

namespace Registry

/-- Its image is accepted, and the loaded registry is valid in no respect. -/
theorem load_from_orphan : (fresh.load_from Sample.orphanage.serialize).Returns ∧
    ¬ (fresh.load_from Sample.orphanage.serialize).2.NoViolations ∧
    ¬ enumsNamed.Holds (fresh.load_from Sample.orphanage.serialize).2 ∧
    ¬ (generationsBelow (fresh.load_from Sample.orphanage.serialize).2.authority).Holds
      (fresh.load_from Sample.orphanage.serialize).2 := by
  have hkey := Sample.orphanage_readable.recovered.keyed
  have hstored : Sample.orphanage.instances[(⟨5⟩ : ServiceInstanceId)]? = some Sample.orphan := by
    simp [Sample.orphanage]
  rw [load_from_serialize_restore Sample.orphanage_readable, restore_withRecords]
  refine ⟨Outcome.returns_ok _ _, fun h => ?_, fun h => ?_, fun h => ?_⟩
  · have hservice := ((recovered_noViolations_iff hkey).1 h).1 _ _ hstored
    exact absurd hservice (by decide +kernel)
  · have hhealth := ((recovered_enums_iff.1 h).1 _ _ hstored).1
    exact absurd hhealth (by decide)
  · have hgen : Sample.orphan.instance_generation ≤ Sample.orphanage.authority.instance_gen :=
      (recovered_generations_iff.1 h).instances _ _ hstored
    exact absurd (UInt64.le_iff_toNat_le.1 (Gen.le_def.1 hgen)) (by decide +kernel)

end Registry

end RuntimeRegistry
