import RuntimeRegistry.Lib.Tables
import RuntimeRegistry.Revocation
/-!
# Conditions on every stored record

A `RecordCondition` says something about each kind of record, at the key it is
stored under. If it does not mind what the registry itself rewrites in a record,
and the records that callers and images bring satisfy it, then every stored
record does, in every reachable state. That records are stored under their own
ids is one such condition.
-/
open Lib Lib.Reader Lib.Table

namespace RuntimeRegistry

structure RecordCondition where
  service : ServiceId → ServiceDescriptor → Prop
  inst : ServiceInstanceId → ServiceInstance → Prop
  runtime : RuntimeId → RuntimeDescriptor → Prop
  runtimeInstance : RuntimeInstanceId → RuntimeDescriptor → Prop
  endpoint : EndpointId → EndpointDescriptor → Prop
  protocol : ProtocolId → ProtocolDescriptor → Prop
  backend : BackendId → BackendDescriptor → Prop
  device : DeviceId → DeviceDescriptor → Prop
  capability : CapabilityId → CapabilityDescriptor → Prop
  node : NodeId → NodeDescriptor → Prop
  lease : LeaseId → LeaseDescriptor → Prop
  tombstone : TombstoneId → TombstoneRecord → Prop
  compat : CompatibilityId → CompatibilityRecord → Prop
  invalidation : InvalidationRecord → Prop

namespace RecordCondition

/-- Every stored record satisfies the condition; one in history, at some key. -/
structure Holds (I : RecordCondition) (r : Registry) : Prop where
  services : All I.service r.services
  instances : All I.inst r.instances
  runtimes : All I.runtime r.runtimes
  runtime_instances : All I.runtimeInstance r.runtime_instances
  endpoints : All I.endpoint r.endpoints
  protocols : All I.protocol r.protocols
  backends : All I.backend r.backends
  devices : All I.device r.devices
  capabilities : All I.capability r.capabilities
  nodes : All I.node r.nodes
  leases : All I.lease r.leases
  tombstones : All I.tombstone r.tombstones
  compat_records : All I.compat r.compat_records
  invalidations : ∀ x ∈ r.invalidations, I.invalidation x
  instance_history : ∀ x ∈ r.instance_history, ∃ k, I.inst k x
  runtime_history : ∀ x ∈ r.runtime_history, ∃ k, I.runtimeInstance k x
  endpoint_history : ∀ x ∈ r.endpoint_history, ∃ k, I.endpoint k x
  capability_history : ∀ x ∈ r.capability_history, ∃ k, I.capability k x

/-- The condition does not depend on the fields that the registry rewrites. -/
structure Stable (I : RecordCondition) : Prop where
  inst : ∀ k x health readiness freshness reachability lifecycle updated_ms, I.inst k x →
    I.inst k { x with
      health := health, readiness := readiness, freshness := freshness, reachability := reachability
      lifecycle := lifecycle, updated_ms := updated_ms }
  endpoint : ∀ k x service_instance reachability freshness, I.endpoint k x →
    I.endpoint k { x with
      service_instance := service_instance, reachability := reachability, freshness := freshness }
  capability : ∀ k x freshness, I.capability k x → I.capability k { x with freshness := freshness }
  lease : ∀ k x state, I.lease k x → I.lease k { x with state := state }

/-- The record that a call brings satisfies the condition, under any id it may
be given. -/
def Admits (I : RecordCondition) : Op → Prop
  | .register_service svc _ => I.service svc.service_id svc
  | .register_instance inst _ | .supersede _ inst _ => ∀ id, I.inst id { inst with instance_id := id }
  | .register_runtime rt _ => ∀ id, I.runtimeInstance id { rt with runtime_instance := id } ∧
      I.runtime rt.runtime_id { rt with runtime_instance := id }
  | .register_endpoint ep _ => ∀ id, I.endpoint id { ep with endpoint_id := id }
  | .register_capability cap _ => ∀ id, I.capability id { cap with capability_id := id }
  | .register_backend bd _ => ∀ id, I.backend id { bd with backend_id := id }
  | .register_device dd _ => ∀ id, I.device id { dd with device_id := id }
  | .register_protocol pd _ => I.protocol pd.protocol_id pd
  | .register_node nd _ => I.node nd.node_id nd
  | .acquire_lease lease _ => ∀ id g, I.lease id { lease with lease_id := id, generation := g }
  | .create_tombstone tomb _ => ∀ id, I.tombstone id { tomb with tombstone_id := id }
  | .invalidate record _ => I.invalidation record
  | _ => True

/-- Every record that the decoder accepts satisfies the condition. -/
structure Decoded (I : RecordCondition) : Prop where
  service : Yields get_servicedesc fun x => I.service x.service_id x
  inst : Yields get_instance fun x => I.inst x.instance_id x
  runtime : Yields get_runtime fun x => I.runtime x.runtime_id x ∧ I.runtimeInstance x.runtime_instance x
  endpoint : Yields get_endpoint fun x => I.endpoint x.endpoint_id x
  protocol : Yields get_protocol fun x => I.protocol x.protocol_id x
  backend : Yields get_backend fun x => I.backend x.backend_id x
  device : Yields get_device fun x => I.device x.device_id x
  capability : Yields get_capability fun x => I.capability x.capability_id x
  node : Yields get_node fun x => I.node x.node_id x
  lease : Yields get_lease fun x => I.lease x.lease_id x
  tombstone : Yields get_tombstone fun x => I.tombstone x.tombstone_id x
  compat : Yields get_compat fun x => I.compat x.compatibility_id x
  invalidation : Yields get_invalidation I.invalidation

variable {I : RecordCondition} {r : Registry} {env : AuthorityEnvelope}

theorem forall_mem_push {α : Type} {P : α → Prop} {xs : List α} {x : α} (h : ∀ y ∈ xs, P y) (hx : P x) :
    ∀ y ∈ xs ++ [x], P y := by
  intro y hy
  rcases List.mem_append.1 hy with hy | hy
  · exact h y hy
  · rw [List.mem_singleton.1 hy]; exact hx

theorem holds_fresh (I : RecordCondition) : I.Holds Registry.fresh := by
  obtain ⟨_, _, _, _, h⟩ := Registry.rebuild_indexes_writes
    { authority := { epoch := ⟨1⟩, registry_generation := ⟨1⟩, record_generation := ⟨1⟩ }
      next_boot := 100, next_id := 1 }
  rw [Registry.fresh, h]
  constructor <;> first | exact All.empty _ | exact fun _ h => nomatch h

theorem Holds.rebuild_indexes (h : I.Holds r) : I.Holds r.rebuild_indexes := by
  obtain ⟨_, _, _, _, hw⟩ := r.rebuild_indexes_writes
  rw [hw]
  exact { h with }

/-! ## Registration of descriptors -/

section
variable {tag : IdTag} {gen : GenTag} {ρ : Type}

/-- A registration keeps the condition if storing an accepted record does. -/
theorem Holds.registerRecord {D : Registry.Domain tag gen ρ} {x : ρ} {X : Prop} (h : I.Holds r)
    (hcommit : ∀ x s, I.Holds s → I.Holds (D.commit x s).2)
    (hreplace : X → ∀ current, (D.table r)[D.id x]? = some current → I.Holds (D.replace current x r))
    (hinsert : X → I.Holds (D.insert (D.assign x r).1 (D.assign x r).2)) :
    ((Registry.registerRecord D r x env).Returns → X) → I.Holds (Registry.registerRecord D r x env).2 := by
  refine Registry.registerRecord_rule D (P := fun o => (o.Returns → X) → I.Holds o.2) ?_ ?_ ?_ ?_ ?_ ?_
  · exact fun _ _ _ => h
  · exact fun _ _ _ _ _ _ => h
  · exact fun _ _ _ _ _ => { h with }
  · exact fun _ current hc _ hx => hcommit _ _ (hreplace (hx (Outcome.returns_ok _ _)) current hc)
  · exact fun _ _ _ _ _ => { h with }
  · exact fun _ _ _ hx => hcommit _ _ (hinsert (hx (Outcome.returns_ok _ _)))

end

theorem Holds.register_service {svc : ServiceDescriptor} (h : I.Holds r)
    (hs : (r.register_service svc env).Returns → I.service svc.service_id svc) : I.Holds (r.register_service svc env).2 := by
  rw [Registry.register_service, Outcome.void_returns] at hs
  rw [Registry.register_service, Outcome.void_snd]
  refine h.registerRecord (fun _ s hs => ?_) (fun hs _ _ => { h with services := h.services.insert hs })
    (fun hs => { h with services := h.services.insert hs }) hs
  exact Holds.rebuild_indexes { hs with }

theorem Holds.register_runtime {rt : RuntimeDescriptor} (h : I.Holds r)
    (hr : (r.register_runtime rt env).Returns → ∀ id, I.runtimeInstance id { rt with runtime_instance := id } ∧
      I.runtime rt.runtime_id { rt with runtime_instance := id }) : I.Holds (r.register_runtime rt env).2 := by
  refine h.registerRecord (fun _ s hs => { hs with })
    (fun hr _ _ => { h with runtime_instances := h.runtime_instances.insert (hr rt.runtime_instance).1 })
    (fun hr => ?_) hr
  have hstore : ∀ id n, I.Holds (Registry.runtimes_.insert { rt with runtime_instance := id } { r with next_id := n }) :=
    fun id _ => { h with
      runtimes := h.runtimes.insert (hr id).2
      runtime_instances := h.runtime_instances.insert (hr id).1
      runtime_history := forall_mem_push h.runtime_history ⟨id, (hr id).1⟩ }
  exact Registry.Domain.assign_rule Registry.runtimes_ (P := fun x s => I.Holds (Registry.runtimes_.insert x s)) rfl
    (fun _ => hstore _ _) fun _ => hstore rt.runtime_instance r.next_id

theorem Holds.register_protocol {pd : ProtocolDescriptor} (h : I.Holds r)
    (hp : (r.register_protocol pd env).Returns → I.protocol pd.protocol_id pd) :
    I.Holds (r.register_protocol pd env).2 := by
  rw [Registry.register_protocol, Outcome.void_returns] at hp
  rw [Registry.register_protocol, Outcome.void_snd]
  exact h.registerRecord (fun _ s hs => { hs with }) (fun hp _ _ => { h with protocols := h.protocols.insert hp })
    (fun hp => { h with protocols := h.protocols.insert hp }) hp

theorem Holds.register_endpoint {ep : EndpointDescriptor} (h : I.Holds r)
    (he : (r.register_endpoint ep env).Returns → ∀ id, I.endpoint id { ep with endpoint_id := id }) :
    I.Holds (r.register_endpoint ep env).2 := by
  refine h.registerRecord (fun _ s hs => { hs with })
    (fun he current hc => { h with
      endpoints := h.endpoints.insert (he ep.endpoint_id)
      endpoint_history := forall_mem_push h.endpoint_history ⟨_, h.endpoints _ _ hc⟩ }) (fun he => ?_) he
  have hstore : ∀ id n, I.Holds (Registry.endpoints_.insert { ep with endpoint_id := id } { r with next_id := n }) :=
    fun id _ => { h with
      endpoints := h.endpoints.insert (he id)
      endpoint_history := forall_mem_push h.endpoint_history ⟨id, he id⟩ }
  exact Registry.Domain.assign_rule Registry.endpoints_ (P := fun x s => I.Holds (Registry.endpoints_.insert x s)) rfl
    (fun _ => hstore _ _) fun _ => hstore ep.endpoint_id r.next_id

theorem Holds.register_capability {cap : CapabilityDescriptor} (h : I.Holds r)
    (hc : (r.register_capability cap env).Returns → ∀ id, I.capability id { cap with capability_id := id }) :
    I.Holds (r.register_capability cap env).2 := by
  refine h.registerRecord (fun _ s hs => { hs with })
    (fun hc current hcur => { h with
      capabilities := h.capabilities.insert (hc cap.capability_id)
      capability_history := forall_mem_push h.capability_history ⟨_, h.capabilities _ _ hcur⟩ }) (fun hc => ?_) hc
  have hstore : ∀ id n,
      I.Holds (Registry.capabilities_.insert { cap with capability_id := id } { r with next_id := n }) :=
    fun id _ => { h with
      capabilities := h.capabilities.insert (hc id)
      capability_history := forall_mem_push h.capability_history ⟨id, hc id⟩ }
  exact Registry.Domain.assign_rule Registry.capabilities_ (P := fun x s => I.Holds (Registry.capabilities_.insert x s)) rfl
    (fun _ => hstore _ _) fun _ => hstore cap.capability_id r.next_id

theorem Holds.register_backend {bd : BackendDescriptor} (h : I.Holds r)
    (hb : (r.register_backend bd env).Returns → ∀ id, I.backend id { bd with backend_id := id }) :
    I.Holds (r.register_backend bd env).2 := by
  refine h.registerRecord (fun _ s hs => { hs with })
    (fun hb _ _ => { h with backends := h.backends.insert (hb bd.backend_id) }) (fun hb => ?_) hb
  have hstore : ∀ id n, I.Holds (Registry.backends_.insert { bd with backend_id := id } { r with next_id := n }) :=
    fun id _ => { h with backends := h.backends.insert (hb id) }
  exact Registry.Domain.assign_rule Registry.backends_ (P := fun x s => I.Holds (Registry.backends_.insert x s)) rfl
    (fun _ => hstore _ _) fun _ => hstore bd.backend_id r.next_id

theorem Holds.register_device {dd : DeviceDescriptor} (h : I.Holds r)
    (hd : (r.register_device dd env).Returns → ∀ id, I.device id { dd with device_id := id }) :
    I.Holds (r.register_device dd env).2 := by
  refine h.registerRecord (fun _ s hs => { hs with })
    (fun hd _ _ => { h with devices := h.devices.insert (hd dd.device_id) }) (fun hd => ?_) hd
  have hstore : ∀ id n, I.Holds (Registry.devices_.insert { dd with device_id := id } { r with next_id := n }) :=
    fun id _ => { h with devices := h.devices.insert (hd id) }
  exact Registry.Domain.assign_rule Registry.devices_ (P := fun x s => I.Holds (Registry.devices_.insert x s)) rfl
    (fun _ => hstore _ _) fun _ => hstore dd.device_id r.next_id

theorem Holds.register_node {nd : NodeDescriptor} (h : I.Holds r)
    (hn : (r.register_node nd env).Returns → I.node nd.node_id nd) : I.Holds (r.register_node nd env).2 := by
  rw [Registry.register_node, Outcome.void_returns] at hn
  rw [Registry.register_node, Outcome.void_snd]
  exact h.registerRecord (fun _ s hs => { hs with }) (fun hn _ _ => { h with nodes := h.nodes.insert hn })
    (fun hn => { h with nodes := h.nodes.insert hn }) hn

/-! ## Instances -/

/-- The record of a reclassified instance differs in rewritten fields only. -/
theorem Stable.reclassify (hI : I.Stable) {k : ServiceInstanceId} {x : ServiceInstance} (s : Registry)
    (h : I.inst k x) : I.inst k (s.reclassify_lifecycle x) := hI.inst k x _ _ _ _ _ _ h

theorem Stable.lifecycle (hI : I.Stable) {k : ServiceInstanceId} {x : ServiceInstance} (l : Enum Lifecycle)
    (h : I.inst k x) : I.inst k { x with lifecycle := l } := hI.inst k x _ _ _ _ _ _ h

theorem Holds.claimEndpoint (hI : I.Stable) (h : I.Holds r) (id : ServiceInstanceId) (eid : EndpointId) :
    I.Holds (r.claimEndpoint id eid).2 := by
  unfold Registry.claimEndpoint
  split
  · exact h
  · rename_i ep hep
    have he := h.endpoints _ _ hep
    split_ifs
    · exact { h with endpoints := h.endpoints.insert (hI.endpoint _ _ id ep.reachability ep.freshness he) }
    · exact { h with }
    · exact { h with endpoints := h.endpoints.insert (hI.endpoint _ _ _ _ _ he) }
    · exact h

theorem Holds.claimEndpoints (hI : I.Stable) (h : I.Holds r) (id : ServiceInstanceId) (eids : List EndpointId) :
    I.Holds (r.claimEndpoints id eids).2 := by
  induction eids generalizing r with
  | nil => exact h
  | cons eid eids ih =>
    have hone := h.claimEndpoint hI id eid
    rcases hc : r.claimEndpoint id eid with ⟨_ | _, s⟩ <;> rw [hc] at hone
    · rw [Registry.claimEndpoints, hc]; exact hone
    · rw [Registry.claimEndpoints, hc]; exact ih hone

theorem Holds.bindInstance (hI : I.Stable) {copy : ServiceInstance} (h : I.Holds r) :
    ((r.bindInstance copy).Returns → I.inst copy.instance_id copy) → I.Holds (r.bindInstance copy).2 := by
  refine Registry.bindInstance_rule (P := fun o => (o.Returns → I.inst copy.instance_id copy) → I.Holds o.2)
    (fun e s hs _ => ?_) fun s hs hc => ?_
  · have := h.claimEndpoints hI copy.instance_id copy.endpoints
    rwa [hs] at this
  · have hc := hc (Outcome.returns_ok _ _)
    have := h.claimEndpoints hI copy.instance_id copy.endpoints
    rw [hs] at this
    exact Holds.rebuild_indexes { this with
      instances := (this.instances.insert hc).insert (hI.reclassify _ hc)
      instance_history := forall_mem_push this.instance_history ⟨_, hc⟩ }

theorem Holds.register_instance (hI : I.Stable) {scan : List ServiceInstanceId} {inst : ServiceInstance}
    (h : I.Holds r) :
    ((r.register_instance scan inst env).Returns → ∀ id, I.inst id { inst with instance_id := id }) →
      I.Holds (r.register_instance scan inst env).2 := by
  have ha : I.Holds { r with next_id := r.assignedNext inst } := { h with }
  refine Registry.register_instance_rule
    (P := fun o => (o.Returns → ∀ id, I.inst id { inst with instance_id := id }) → I.Holds o.2) ?_ ?_ ?_ ?_ ?_ ?_ ?_
  · exact fun _ _ _ => h
  · exact fun _ _ _ _ => h
  · exact fun _ _ _ _ _ _ _ _ => ha
  · exact fun _ _ _ _ _ _ _ _ _ => { ha with }
  · intro _ _ id current hcur _ hi
    have hx := ha.instances _ _ (Registry.currentInstance_some hcur).1
    exact Holds.bindInstance hI { ha with
      instances := ha.instances.insert (hI.lifecycle _ hx)
      instance_history := forall_mem_push ha.instance_history ⟨_, hx⟩ } fun hr => hi hr _
  · exact fun _ _ _ _ _ _ => { ha with }
  · exact fun _ _ _ _ hi => ha.bindInstance hI fun hr => hi hr _

theorem Holds.supersede (hI : I.Stable) {scan : List ServiceInstanceId} {old_id : ServiceInstanceId}
    {inst : ServiceInstance} (h : I.Holds r) :
    ((r.supersede scan old_id inst env).Returns → ∀ id, I.inst id { inst with instance_id := id }) →
      I.Holds (r.supersede scan old_id inst env).2 := by
  have hm : ∀ old, r.instances[old_id]? = some old → ∀ o,
      (r.markSuperseded old_id old).register_instance scan inst env = o →
      (o.Returns → ∀ id, I.inst id { inst with instance_id := id }) → I.Holds o.2 := by
    rintro old hold o rfl
    have hx := h.instances _ _ hold
    exact Holds.register_instance hI { h with
      instances := h.instances.insert (hI.lifecycle _ hx)
      instance_history := forall_mem_push h.instance_history ⟨_, hx⟩ }
  refine Registry.supersede_rule
    (P := fun o => (o.Returns → ∀ id, I.inst id { inst with instance_id := id }) → I.Holds o.2) ?_ ?_ ?_ ?_
  · exact fun _ _ _ => h
  · exact fun _ _ _ _ => h
  · exact fun _ old hold _ _ ho _ => hm old hold _ ho fun hr => absurd hr (Outcome.not_returns_error _ _)
  · exact fun _ old hold _ _ ho hi => { hm old hold _ ho fun _ => hi (Outcome.returns_ok _ _) with }

theorem Holds.updateInstance (hI : I.Stable) {id : ServiceInstanceId} {write : ServiceInstance → ServiceInstance}
    {stale : RegistryError} (h : I.Holds r) (hw : ∀ x, I.inst id x → I.inst id (write x)) :
    I.Holds (r.updateInstance id write stale env).2 := by
  refine Registry.updateInstance_rule (P := fun o => I.Holds o.2) ?_ ?_ ?_ ?_
  · exact fun _ _ => h
  · exact fun _ _ _ => h
  · exact fun _ _ _ _ => { h with }
  · exact fun _ inst hi _ => { h with instances := h.instances.insert (hI.reclassify _ (hw _ (h.instances _ _ hi))) }

theorem Holds.update_reachability (hI : I.Stable) {id : EndpointId} {rc : Enum Reachability} (h : I.Holds r) :
    I.Holds (r.update_reachability id rc env).2 := by
  refine Registry.update_reachability_rule (P := fun o => I.Holds o.2) ?_ ?_ ?_ ?_
  · exact fun _ _ => h
  · exact fun _ _ _ => h
  · exact fun _ _ _ _ _ => { h with }
  · intro _ ep hep _
    have he : I.Holds { r with endpoints := r.endpoints.insert id { ep with reachability := rc } } :=
      { h with endpoints := h.endpoints.insert (hI.endpoint _ _ ep.service_instance _ ep.freshness (h.endpoints _ _ hep)) }
    have ho := Registry.reclassifyOwner_rule (P := I.Holds) ep.service_instance he
      fun _ inst hi => { he with instances := he.instances.insert (hI.reclassify _ (he.instances _ _ hi)) }
    exact { ho with }

theorem Holds.deregister (hI : I.Stable) {id : ServiceInstanceId} (h : I.Holds r) :
    I.Holds (r.deregister id env).2 := by
  refine Registry.deregister_rule (P := fun o => I.Holds o.2) ?_ ?_ ?_ ?_
  · exact fun _ _ => h
  · exact fun _ _ => h
  · exact fun _ _ _ _ _ => { h with }
  · exact fun _ inst hi _ => { h with
      instances := h.instances.insert (hI.lifecycle _ (h.instances _ _ hi))
      instance_history := forall_mem_push h.instance_history ⟨_, h.instances _ _ hi⟩ }

/-! ## Leases, tombstones and invalidations -/

theorem Holds.acquire_lease {lease : LeaseDescriptor} (h : I.Holds r)
    (hl : (r.acquire_lease lease env).Returns → ∀ id g, I.lease id { lease with lease_id := id, generation := g }) :
    I.Holds (r.acquire_lease lease env).2 := by
  revert hl
  refine Registry.authorized_rule (P := fun o => (o.Returns →
    ∀ id g, I.lease id { lease with lease_id := id, generation := g }) → I.Holds o.2) (fun _ _ _ => h) fun _ hl => ?_
  have hl := hl (Outcome.returns_ok _ _)
  dsimp only
  split <;> exact { h with leases := h.leases.insert (hl _ _) }

theorem Holds.renew_lease (hI : I.Stable) {id : LeaseId} (h : I.Holds r) : I.Holds (r.renew_lease id env).2 := by
  refine Registry.renew_lease_rule (P := fun o => I.Holds o.2) ?_ ?_ ?_ ?_
  · exact fun _ _ => h
  · exact fun _ _ _ => h
  · exact fun _ _ _ _ => { h with }
  · exact fun _ lease hl _ => { h with leases := h.leases.insert (hI.lease _ _ _ (h.leases _ _ hl)) }

theorem Holds.endLease (hI : I.Stable) {id : LeaseId} {state : LeaseState} (h : I.Holds r) :
    I.Holds (r.endLease id state env).2 := by
  refine Registry.endLease_rule (P := fun o => I.Holds o.2) ?_ ?_ ?_ ?_
  · exact fun _ _ => h
  · exact fun _ _ => h
  · exact fun _ _ _ _ => { h with }
  · exact fun _ lease hl _ => { h with leases := h.leases.insert (hI.lease _ _ _ (h.leases _ _ hl)) }

theorem Holds.mark_lease_revalidation_required (hI : I.Stable) {id : LeaseId} (h : I.Holds r) :
    I.Holds (r.mark_lease_revalidation_required id) :=
  Registry.mark_lease_revalidation_required_rule (P := I.Holds) h fun _ hl _ =>
    { h with leases := h.leases.insert (hI.lease _ _ _ (h.leases _ _ hl)) }

theorem Holds.invalidate {record : InvalidationRecord} (h : I.Holds r) :
    ((r.invalidate record env).Returns → I.invalidation record) → I.Holds (r.invalidate record env).2 :=
  Registry.authorized_rule (P := fun o => (o.Returns → I.invalidation record) → I.Holds o.2) (fun _ _ _ => h)
    fun _ hr => { h with invalidations := forall_mem_push h.invalidations (hr (Outcome.returns_ok _ _)) }

theorem Holds.create_tombstone {tomb : TombstoneRecord} (h : I.Holds r)
    (ht : (r.create_tombstone tomb env).Returns → ∀ id, I.tombstone id { tomb with tombstone_id := id }) :
    I.Holds (r.create_tombstone tomb env).2 := by
  revert ht
  refine Registry.authorized_rule (P := fun o => (o.Returns →
    ∀ id, I.tombstone id { tomb with tombstone_id := id }) → I.Holds o.2) (fun _ _ _ => h) fun _ ht => ?_
  have ht := ht (Outcome.returns_ok _ _)
  dsimp only
  split
  · exact { h with tombstones := h.tombstones.insert (ht _) }
  · exact { h with tombstones := h.tombstones.insert (ht tomb.tombstone_id) }

/-! ## Epochs and deaths -/

theorem Holds.begin_coordinator_epoch (hI : I.Stable) (h : I.Holds r) : I.Holds r.begin_coordinator_epoch where
  __ := h
  instances := h.instances.map fun k x hx => by
    unfold Registry.revalidateInstance
    split
    · exact hI.inst k x _ _ _ _ _ _ hx
    · exact hI.inst k x x.health x.readiness x.freshness x.reachability x.lifecycle _ hx
  endpoints := h.endpoints.map fun k x hx => by
    unfold Registry.revalidateEndpoint
    split_ifs
    · exact hI.endpoint k x x.service_instance _ _ hx
    · exact hI.endpoint k x x.service_instance _ x.freshness hx
    · exact hx
  capabilities := h.capabilities.map fun k x hx => by
    unfold Registry.revalidateCapability
    split
    · exact hI.capability k x _ hx
    · exact hx
  leases := h.leases.map fun k x hx => by
    unfold Registry.revalidateLease
    split
    · exact hI.lease k x _ hx
    · exact hx

theorem Holds.revoke (hI : I.Stable) (h : I.Holds r) (boot : WorkerBootId) : I.Holds (r.revoke_boot_internal boot) := by
  classical
  have hw := Registry.revoke_writes r boot
  have hi : All I.inst (r.revoke_boot_internal boot).instances := by
    intro k x hx
    rw [Registry.revoke_instances, Option.map_eq_some_iff] at hx
    obtain ⟨y, hy, rfl⟩ := hx
    split
    · unfold Registry.markDead
      split
      · exact hI.inst k y y.health _ _ _ _ y.updated_ms (h.instances k y hy)
      · exact h.instances k y hy
    · exact h.instances k y hy
  have he : All I.endpoint (r.revoke_boot_internal boot).endpoints := by
    intro k x hx
    unfold Registry.revoke_boot_internal at hx
    split at hx
    · rw [Registry.walk_endpoints, Option.map_eq_some_iff] at hx
      obtain ⟨y, hy, rfl⟩ := hx
      split
      · exact hI.endpoint k y _ _ y.freshness (h.endpoints k y hy)
      · exact h.endpoints k y hy
    · exact h.endpoints k x hx
  have hl : All I.lease (r.revoke_boot_internal boot).leases := by
    intro k x hx
    unfold Registry.revoke_boot_internal at hx
    split at hx
    · rw [Registry.walk_leases] at hx
      split at hx
      · obtain ⟨y, hy, rfl⟩ := Option.map_eq_some_iff.1 hx
        unfold Registry.expiredLease
        split
        · exact hI.lease k y _ (h.leases k y hy)
        · exact h.leases k y hy
      · exact h.leases k x hx
    · exact h.leases k x hx
  obtain ⟨_, _, _, _, hw⟩ := hw
  rw [hw] at hi he hl ⊢
  exact { h with instances := hi, endpoints := he, leases := hl }

theorem Holds.adopt_worker (hI : I.Stable) (h : I.Holds r) (worker : WorkerId) : I.Holds (r.adopt_worker worker).2 := by
  have hnext : I.Holds { r with next_boot := r.next_boot + 1 } := { h with }
  unfold Registry.adopt_worker
  dsimp only
  split
  · split_ifs
    · exact { hnext.revoke hI _ with }
    · exact { hnext with }
  · exact { hnext with }

/-! ## Images -/

/-- A record loop keeps a property of the registry if storing a decoded record does. -/
theorem loadRecords_keeps {ρ : Type} {P : Registry → Prop} {Q : ρ → Prop} {get : Reader ρ} {broken : String}
    {refuse : Registry → ρ → Option String} {store : ρ → Registry → Registry} (hget : Yields get Q)
    (hstore : ∀ x s, Q x → P s → P (store x s)) (n : Nat) (c : Cursor) (h : P r) :
    P (Registry.loadRecords get broken refuse store n c r).2 := by
  induction n generalizing c r with
  | zero => exact h
  | succ n ih =>
    unfold Registry.loadRecords
    dsimp only
    split_ifs with hok
    · exact h
    · split
      · exact h
      · exact ih _ (hstore _ _ (hget c (by simpa using hok)) h)

theorem Loading.next_keeps {P : Registry → Prop} {f g : Registry.Loading} (hf : ∀ c s, P s → P (f c s).2)
    (hg : ∀ c s, P s → P (g c s).2) (c : Cursor) (s : Registry) (h : P s) : P (Registry.Loading.next f g c s).2 := by
  have h₁ := hf c s h
  unfold Registry.Loading.next
  rcases hc : f c s with ⟨_ | c', s'⟩ <;> rw [hc] at h₁
  · exact h₁
  · exact hg c' s' h₁

theorem Holds.loadAll (hD : I.Decoded) (n : Registry.Counts) (c : Cursor) (h : I.Holds r) :
    I.Holds (Registry.loadAll n c r).2 := by
  unfold Registry.loadAll
  refine Loading.next_keeps (P := I.Holds) (fun c s hs => loadRecords_keeps (P := I.Holds) hD.service ?_ _ c hs) ?_ c r h
  · exact fun x s hx hs => { hs with services := hs.services.insert hx }
  refine Loading.next_keeps (P := I.Holds) (fun c s hs => loadRecords_keeps (P := I.Holds) hD.inst ?_ _ c hs) ?_
  · exact fun x s hx hs => { hs with instances := hs.instances.insert hx }
  refine Loading.next_keeps (P := I.Holds) (fun c s hs => loadRecords_keeps (P := I.Holds) hD.runtime ?_ _ c hs) ?_
  · exact fun x s hx hs => { hs with runtimes := hs.runtimes.insert hx.1 }
  refine Loading.next_keeps (P := I.Holds) (fun c s hs => loadRecords_keeps (P := I.Holds) hD.runtime ?_ _ c hs) ?_
  · exact fun x s hx hs => { hs with runtime_instances := hs.runtime_instances.insert hx.2 }
  refine Loading.next_keeps (P := I.Holds) (fun c s hs => loadRecords_keeps (P := I.Holds) hD.endpoint ?_ _ c hs) ?_
  · exact fun x s hx hs => { hs with endpoints := hs.endpoints.insert hx }
  refine Loading.next_keeps (P := I.Holds) (fun c s hs => loadRecords_keeps (P := I.Holds) hD.protocol ?_ _ c hs) ?_
  · exact fun x s hx hs => { hs with protocols := hs.protocols.insert hx }
  refine Loading.next_keeps (P := I.Holds) (fun c s hs => loadRecords_keeps (P := I.Holds) hD.backend ?_ _ c hs) ?_
  · exact fun x s hx hs => { hs with backends := hs.backends.insert hx }
  refine Loading.next_keeps (P := I.Holds) (fun c s hs => loadRecords_keeps (P := I.Holds) hD.device ?_ _ c hs) ?_
  · exact fun x s hx hs => { hs with devices := hs.devices.insert hx }
  refine Loading.next_keeps (P := I.Holds) (fun c s hs => loadRecords_keeps (P := I.Holds) hD.capability ?_ _ c hs) ?_
  · exact fun x s hx hs => { hs with capabilities := hs.capabilities.insert hx }
  refine Loading.next_keeps (P := I.Holds) (fun c s hs => loadRecords_keeps (P := I.Holds) hD.node ?_ _ c hs) ?_
  · exact fun x s hx hs => { hs with nodes := hs.nodes.insert hx }
  refine Loading.next_keeps (P := I.Holds) (fun c s hs => loadRecords_keeps (P := I.Holds) hD.lease ?_ _ c hs) ?_
  · exact fun x s hx hs => { hs with leases := hs.leases.insert hx }
  refine Loading.next_keeps (P := I.Holds) (fun c s hs => loadRecords_keeps (P := I.Holds) hD.tombstone ?_ _ c hs) ?_
  · exact fun x s hx hs => { hs with tombstones := hs.tombstones.insert hx }
  refine Loading.next_keeps (P := I.Holds) (fun c s hs => loadRecords_keeps (P := I.Holds) hD.compat ?_ _ c hs) ?_
  · exact fun x s hx hs => { hs with compat_records := hs.compat_records.insert hx }
  refine Loading.next_keeps (P := I.Holds) (fun c s hs => loadRecords_keeps (P := I.Holds) hD.invalidation ?_ _ c hs) ?_
  · exact fun x s hx hs => { hs with invalidations := forall_mem_push hs.invalidations hx }
  refine Loading.next_keeps (P := I.Holds) (fun c s hs => loadRecords_keeps (P := I.Holds) hD.inst ?_ _ c hs) ?_
  · exact fun x s hx hs => { hs with instance_history := forall_mem_push hs.instance_history ⟨_, hx⟩ }
  refine Loading.next_keeps (P := I.Holds) (fun c s hs => loadRecords_keeps (P := I.Holds) hD.runtime ?_ _ c hs) ?_
  · exact fun x s hx hs => { hs with runtime_history := forall_mem_push hs.runtime_history ⟨_, hx.2⟩ }
  refine Loading.next_keeps (P := I.Holds) (fun c s hs => loadRecords_keeps (P := I.Holds) hD.endpoint ?_ _ c hs) ?_
  · exact fun x s hx hs => { hs with endpoint_history := forall_mem_push hs.endpoint_history ⟨_, hx⟩ }
  refine fun c s hs => loadRecords_keeps (P := I.Holds) hD.capability ?_ _ c hs
  exact fun x s hx hs => { hs with capability_history := forall_mem_push hs.capability_history ⟨_, hx⟩ }

theorem Holds.restore (hI : I.Stable) (h : I.Holds r) (header : Registry.Header) :
    I.Holds (Registry.restore header r) := by
  have he := h.begin_coordinator_epoch hI
  have hr : I.Holds { r with
      authority := header.authority, next_boot := header.next_boot, next_id := header.next_id
      instances := r.instances.map fun _ => Registry.recoverInstance
      endpoints := r.endpoints.map fun _ => Registry.recoverEndpoint
      capabilities := r.capabilities.map fun _ => Registry.recoverCapability
      leases := r.leases.map fun _ => Registry.recoverLease } := { he with }
  exact { hr.rebuild_indexes with }

theorem Holds.load_from (hI : I.Stable) (hD : I.Decoded) (h : I.Holds r) (data : List UInt8) :
    I.Holds (r.load_from data).2 := by
  have hcleared : I.Holds r.cleared := by
    constructor <;> first | exact All.empty _ | exact fun _ h => nomatch h
  have hall : ∀ n c, I.Holds (Registry.loadAll n c r.cleared).2 := fun n c => hcleared.loadAll hD n c
  unfold Registry.load_from
  dsimp only
  split_ifs
  · exact h
  · exact h
  · exact h
  unfold Registry.loadContent
  dsimp only
  split_ifs
  · exact h
  · exact h
  · exact h
  generalize hn : Registry.loadAll _ _ r.cleared = o
  have ho : I.Holds o.2 := hn ▸ hall _ _
  rcases o with ⟨_ | c, s⟩
  · exact ho
  simp only [Outcome.andThen_ok]
  split_ifs
  · exact ho
  · exact ho
  · exact ho.restore hI _

/-! ## Steps and runs -/

/-- A call keeps the condition if an accepted call brings a record that satisfies it. -/
theorem Holds.exec (hI : I.Stable) {scan : List ServiceInstanceId} {op : Op} (hD : ∀ data, op = .load_from data → I.Decoded)
    (h : I.Holds r) (ha : (r.exec scan op).Returns → I.Admits op) : I.Holds (r.exec scan op).2 := by
  have hwrite : ∀ id, ∀ w : ServiceInstance → ServiceInstance,
      (∀ x, ∃ a b c d, w x = { x with health := a, readiness := b, freshness := c, reachability := d }) →
      ∀ x, I.inst id x → I.inst id (w x) := by
    intro id w hw x hx
    obtain ⟨a, b, c, d, hw⟩ := hw x
    rw [hw]
    exact hI.inst id x a b c d x.lifecycle x.updated_ms hx
  cases op with
  | begin_coordinator_epoch => exact h.begin_coordinator_epoch hI
  | adopt_worker worker => exact h.adopt_worker hI worker
  | mark_worker_died boot => exact h.revoke hI boot
  | set_worker_health_reporting worker enabled => exact h
  | register_service svc env => exact h.register_service fun hr => ha ((Outcome.map_returns _ _).2 hr)
  | register_instance inst env => exact h.register_instance hI fun hr => ha ((Outcome.map_returns _ _).2 hr)
  | register_runtime rt env => exact h.register_runtime fun hr => ha ((Outcome.map_returns _ _).2 hr)
  | register_endpoint ep env => exact h.register_endpoint fun hr => ha ((Outcome.map_returns _ _).2 hr)
  | register_capability cap env => exact h.register_capability fun hr => ha ((Outcome.map_returns _ _).2 hr)
  | register_backend bd env => exact h.register_backend fun hr => ha ((Outcome.map_returns _ _).2 hr)
  | register_device dd env => exact h.register_device fun hr => ha ((Outcome.map_returns _ _).2 hr)
  | register_protocol pd env => exact h.register_protocol fun hr => ha ((Outcome.map_returns _ _).2 hr)
  | register_node nd env => exact h.register_node fun hr => ha ((Outcome.map_returns _ _).2 hr)
  | update_health id x env => exact h.updateInstance hI (hwrite id _ fun _ => ⟨_, _, _, _, rfl⟩)
  | update_readiness id x env => exact h.updateInstance hI (hwrite id _ fun _ => ⟨_, _, _, _, rfl⟩)
  | update_freshness id x env => exact h.updateInstance hI (hwrite id _ fun _ => ⟨_, _, _, _, rfl⟩)
  | update_reachability id x env => exact h.update_reachability hI
  | update_instance_reachability id x env => exact h.updateInstance hI (hwrite id _ fun _ => ⟨_, _, _, _, rfl⟩)
  | acquire_lease lease env => exact h.acquire_lease fun hr => ha ((Outcome.map_returns _ _).2 hr)
  | renew_lease id env => exact h.renew_lease hI
  | expire_lease id env => exact h.endLease hI
  | revoke_lease id env => exact h.endLease hI
  | mark_lease_revalidation_required id => exact h.mark_lease_revalidation_required hI
  | invalidate record env => exact h.invalidate fun hr => ha ((Outcome.map_returns _ _).2 hr)
  | supersede old_id inst env => exact h.supersede hI fun hr => ha ((Outcome.map_returns _ _).2 hr)
  | create_tombstone tomb env => exact h.create_tombstone fun hr => ha ((Outcome.map_returns _ _).2 hr)
  | deregister id env => exact h.deregister hI
  | query q => exact h
  | query_and_account q => exact { h with }
  | serialize => exact h
  | load_from data => exact h.load_from hI (hD data rfl) data

/-- In a script whose calls bring records that satisfy the condition, every stored
record satisfies it. -/
theorem Holds.after (hI : I.Stable) (h : I.Holds r) {ops : List Op}
    (hops : ∀ op ∈ ops, I.Admits op ∧ ∀ data, op ≠ .load_from data) : I.Holds (r.after ops) := by
  induction ops generalizing r with
  | nil => exact h
  | cons op ops ih =>
    rw [List.forall_mem_cons] at hops
    exact ih (h.exec hI (fun data hop => absurd hop (hops.1.2 data)) fun _ => hops.1.1) hops.2

end RecordCondition

/-! ## Records know their keys -/

/-- Every record is stored under its own id. -/
def wellKeyed : RecordCondition where
  service k x := x.service_id = k
  inst k x := x.instance_id = k
  runtime k x := x.runtime_id = k
  runtimeInstance k x := x.runtime_instance = k
  endpoint k x := x.endpoint_id = k
  protocol k x := x.protocol_id = k
  backend k x := x.backend_id = k
  device k x := x.device_id = k
  capability k x := x.capability_id = k
  node k x := x.node_id = k
  lease k x := x.lease_id = k
  tombstone k x := x.tombstone_id = k
  compat k x := x.compatibility_id = k
  invalidation _ := True

theorem wellKeyed_stable : wellKeyed.Stable := by
  constructor <;> intros <;> assumption

theorem wellKeyed_decoded : wellKeyed.Decoded where
  service _ _ := rfl
  inst _ _ := rfl
  runtime _ _ := ⟨rfl, rfl⟩
  endpoint _ _ := rfl
  protocol _ _ := rfl
  backend _ _ := rfl
  device _ _ := rfl
  capability _ _ := rfl
  node _ _ := rfl
  lease _ _ := rfl
  tombstone _ _ := rfl
  compat _ _ := rfl
  invalidation _ _ := trivial

theorem wellKeyed_admits (op : Op) : wellKeyed.Admits op := by
  cases op <;> simp [RecordCondition.Admits, wellKeyed]

/-- Every call keeps the records under their own ids. -/
theorem wellKeyed_step {r t : Registry} {e : Event} (h : wellKeyed.Holds r) (hs : Step r e t) : wellKeyed.Holds t :=
  hs.state ▸ h.exec wellKeyed_stable (fun _ _ => wellKeyed_decoded) fun _ => wellKeyed_admits e.op

/-- In every reachable state the records are stored under their own ids. -/
theorem wellKeyed_reachable {r : Registry} (h : r.Reachable) : wellKeyed.Holds r :=
  h.inv wellKeyed.Holds (RecordCondition.holds_fresh _) fun _ _ _ hs hst => wellKeyed_step hs hst

end RuntimeRegistry
