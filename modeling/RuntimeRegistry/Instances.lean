import RuntimeRegistry.Registrations
/-!
# Service instances

The lifecycle of an instance is a conclusion drawn from its own fields, its
endpoints, its lease, its service's requirements and the live boots, by
`reclassify_lifecycle`. Registering an instance supersedes the current one of
its service and claims its endpoints, one by one, before it is stored.
-/
open Lib

namespace RuntimeRegistry

namespace Registry

/-! ## Lifecycle classification -/

def aggregate_health (inst : ServiceInstance) (eps : Map .EndpointId EndpointDescriptor) : Enum Health :=
  inst.endpoints.foldl (fun h eid =>
    match eps[eid]? with
    | none => h
    | some ep =>
      if ep.health = Health.UNHEALTHY ∨ ep.health = Health.UNAVAILABLE then Health.UNHEALTHY
      else if ep.health = Health.DEGRADED ∧ h ≠ Health.UNHEALTHY then Health.DEGRADED
      else h) inst.health

/-- The loop of `aggregate_reachability`; `degraded` is its local. -/
def aggregateReachabilityLoop (eps : Map .EndpointId EndpointDescriptor) (degraded : Bool) :
    List EndpointId → Enum Reachability
  | [] => if degraded then Reachability.DEGRADED else Reachability.REACHABLE
  | eid :: eids =>
    match eps[eid]? with
    | none => Reachability.UNKNOWN
    | some ep =>
      if ep.reachability = Reachability.UNREACHABLE then Reachability.UNREACHABLE
      else if ep.reachability = Reachability.REVALIDATION_REQUIRED ∨ ep.reachability = Reachability.UNKNOWN then
        Reachability.REVALIDATION_REQUIRED
      else aggregateReachabilityLoop eps (degraded || ep.reachability = Reachability.DEGRADED) eids

def aggregate_reachability (inst : ServiceInstance) (eps : Map .EndpointId EndpointDescriptor) : Enum Reachability :=
  if inst.endpoints = [] then inst.reachability else aggregateReachabilityLoop eps false inst.endpoints

def capability_current (cap : CapabilityDescriptor) : Bool := cap.freshness = Freshness.CURRENT

/-- The lease, where the instance names one, is stored and active. -/
def leaseActive (r : Registry) (id : LeaseId) : Bool :=
  id.value = 0 || match r.leases[id]? with
    | some lease => lease.state = LeaseState.ACTIVE
    | none => false

/-- Some listed capability has the required kind and is current. -/
def capabilityFound (r : Registry) (inst : ServiceInstance) (req : Enum CapabilityKind) : Bool :=
  inst.capabilities.any fun cid =>
    match r.capabilities[cid]? with
    | some cap => cap.kind = req && capability_current cap
    | none => false

/-- Every kind that the stored service requires is found. -/
def requirementsFound (r : Registry) (inst : ServiceInstance) : Bool :=
  match r.services[inst.service_id]? with
  | some svc => svc.required_capabilities.all (r.capabilityFound inst)
  | none => true

/-- The lifecycle of an instance whose health and reachability are aggregated. -/
def classify (r : Registry) (inst : ServiceInstance) : Lifecycle :=
  if !r.authority.is_boot_live inst.boot then .STALE
  else if inst.freshness ≠ Freshness.CURRENT then .STALE
  else if inst.reachability = Reachability.UNREACHABLE then .UNREACHABLE
  else if inst.reachability = Reachability.REVALIDATION_REQUIRED ∨ inst.reachability = Reachability.UNKNOWN then .UNREADY
  else if !r.leaseActive inst.lease then .STALE
  else if !r.requirementsFound inst then .UNREADY
  else if inst.readiness = Readiness.DRAINING then .DRAINING
  else if inst.readiness = Readiness.NOT_READY ∨ inst.readiness = Readiness.REVALIDATION_REQUIRED ∨
      inst.readiness = Readiness.UNKNOWN then .UNREADY
  else if inst.health = Health.UNHEALTHY ∨ inst.health = Health.UNAVAILABLE then .UNREADY
  else if inst.health = Health.DEGRADED ∨ inst.readiness = Readiness.PARTIALLY_READY ∨
      inst.reachability = Reachability.DEGRADED then .DEGRADED
  else .AVAILABLE

def reclassify_lifecycle (r : Registry) (inst : ServiceInstance) : ServiceInstance :=
  let inst := { inst with
    health := aggregate_health inst r.endpoints, reachability := aggregate_reachability inst r.endpoints }
  { inst with lifecycle := r.classify inst }

/-! ## Registration of an instance -/

/-- The lifecycles of an incarnation that is over. -/
def historical (l : Enum Lifecycle) : Bool :=
  l = Lifecycle.SUPERSEDED || l = Lifecycle.TOMBSTONED || l = Lifecycle.RETIRED || l = Lifecycle.INVALIDATED

/-- One round of the scan for the current instance of a service. -/
def currentOf (r : Registry) (service : ServiceId) (current : Option (ServiceInstanceId × ServiceInstance))
    (id : ServiceInstanceId) : Option (ServiceInstanceId × ServiceInstance) :=
  match r.instances[id]? with
  | none => current
  | some existing =>
    if existing.service_id = service && !historical existing.lifecycle then
      match current with
      | none => some (id, existing)
      | some (cid, c) => if existing.instance_generation > c.instance_generation then some (id, existing) else some (cid, c)
    else current

/-- The non-historical instance of the service with the highest generation, the
first of them in the order of the scan. -/
def currentInstance (r : Registry) (scan : List ServiceInstanceId) (service : ServiceId) :
    Option (ServiceInstanceId × ServiceInstance) :=
  scan.foldl (r.currentOf service) none

/-- An instance whose endpoints a fresh incarnation may claim. -/
def inactive (r : Registry) (owner : ServiceInstanceId) : Bool :=
  match r.instances[owner]? with
  | none => true
  | some inst => historical inst.lifecycle || inst.lifecycle = Lifecycle.STALE

/-- One round of the endpoint loop of `register_instance`. -/
def claimEndpoint (r : Registry) (id : ServiceInstanceId) (eid : EndpointId) : Outcome Unit :=
  match r.endpoints[eid]? with
  | none => (.error ⟨.UNKNOWN_IDENTITY, text "instance references unregistered endpoint"⟩, r)
  | some ep =>
    if ep.service_instance.value = 0 then
      (.ok (), { r with endpoints := r.endpoints.insert eid { ep with service_instance := id } })
    else if ep.service_instance ≠ id then
      if !r.inactive ep.service_instance then
        (.error ⟨.DUPLICATE_CONFLICT, text "endpoint already bound to another instance"⟩, r.countDuplicate)
      else
        let ep := { ep with
          service_instance := id, reachability := Reachability.REACHABLE, freshness := Freshness.CURRENT }
        (.ok (), { r with endpoints := r.endpoints.insert eid ep })
    else (.ok (), r)

def claimEndpoints (r : Registry) (id : ServiceInstanceId) : List EndpointId → Outcome Unit
  | [] => (.ok (), r)
  | eid :: eids => (r.claimEndpoint id eid).andThen fun _ r => r.claimEndpoints id eids

/-- The current instance is put into history and marked superseded. -/
def supersedeCurrent (r : Registry) (id : ServiceInstanceId) (current : ServiceInstance) : Registry :=
  { r with
    instance_history := r.instance_history ++ [current]
    instances := r.instances.insert id { current with lifecycle := Lifecycle.SUPERSEDED }
    accounting := { r.accounting with
      available_instances := decrement r.accounting.available_instances
      supersessions := r.accounting.supersessions + 1 } }

/-- The lines of `register_instance` after the endpoint loop. -/
def storeInstance (r : Registry) (copy : ServiceInstance) : Registry :=
  let r := { r with
    instances := r.instances.insert copy.instance_id copy
    instance_history := r.instance_history ++ [copy]
    accounting := { r.accounting with
      service_instances := r.accounting.service_instances + 1
      registrations := r.accounting.registrations + 1 } }
  let r := { r with instances := r.instances.insert copy.instance_id (r.reclassify_lifecycle copy) }
  r.commit_registry_generation.rebuild_indexes

/-- The endpoint loop and what follows it. -/
def bindInstance (r : Registry) (copy : ServiceInstance) : Outcome ServiceInstanceId :=
  (r.claimEndpoints copy.instance_id copy.endpoints).andThen fun _ r => (.ok copy.instance_id, r.storeInstance copy)

/-- An instance with id 0 takes the next id. -/
def assignInstance (inst : ServiceInstance) (r : Registry) : ServiceInstance × Registry :=
  if inst.instance_id.value = 0 then ({ inst with instance_id := ⟨r.next_id⟩ }, { r with next_id := r.next_id + 1 })
  else (inst, r)

def register_instance (r : Registry) (scan : List ServiceInstanceId) (inst : ServiceInstance)
    (env : AuthorityEnvelope) : Outcome ServiceInstanceId :=
  authorized r env <|
  if inst.service_id ∉ r.services then
    (.error ⟨.UNKNOWN_IDENTITY, text "instance references unregistered ServiceId"⟩, r)
  else
    let (copy, r) := assignInstance inst r
    match r.currentInstance scan copy.service_id with
    | some (id, current) =>
      if copy.instance_generation = current.instance_generation && copy == current then (.ok copy.instance_id, r)
      else if copy.instance_generation ≤ current.instance_generation then
        (.error ⟨.STALE_INSTANCE_GENERATION,
          text "registration rejected because ServiceInstanceGeneration " ++ to_string copy.instance_generation.value ++
            text " is stale; current " ++ to_string current.instance_generation.value⟩, r.countDuplicate)
      else (r.supersedeCurrent id current).bindInstance copy
    | none =>
      if r.covered_by_tombstone (text "ServiceId") (to_string copy.service_id.value) copy.instance_generation.value then
        (.error ⟨.TOMBSTONE_RESURRECTION, text "instance resurrected by tombstone"⟩, r.countStale)
      else r.bindInstance copy

/-! ## Instance transitions -/

def generation_is_current_generation (env : AuthorityEnvelope) (inst : ServiceInstance) : Bool :=
  !(env.service_instance_generation.value ≠ 0 && env.service_instance_generation ≠ inst.instance_generation)

/-- The four updates of one field of an instance; `stale` is the refusal of an
envelope that names another generation. -/
def updateInstance (r : Registry) (id : ServiceInstanceId) (write : ServiceInstance → ServiceInstance)
    (stale : RegistryError) (env : AuthorityEnvelope) : Outcome Unit :=
  authorized r env <|
  match r.instances[id]? with
  | none => (.error ⟨.UNKNOWN_IDENTITY, text "no such instance"⟩, r)
  | some inst =>
    if !generation_is_current_generation env inst then (.error stale, r.countStale)
    else (.ok (),
      { r with instances := r.instances.insert id (r.reclassify_lifecycle (write inst)) }.commit_registry_generation)

def update_health (r : Registry) (id : ServiceInstanceId) (h : Enum Health) (env : AuthorityEnvelope) : Outcome Unit :=
  r.updateInstance id (fun inst => { inst with health := h })
    ⟨.STALE_HEALTH, text "stale health update; instance was superseded"⟩ env

def update_readiness (r : Registry) (id : ServiceInstanceId) (rd : Enum Readiness) (env : AuthorityEnvelope) :
    Outcome Unit :=
  r.updateInstance id (fun inst => { inst with readiness := rd })
    ⟨.STALE_READINESS, text "stale readiness update; instance was superseded"⟩ env

def update_freshness (r : Registry) (id : ServiceInstanceId) (f : Enum Freshness) (env : AuthorityEnvelope) :
    Outcome Unit :=
  r.updateInstance id (fun inst => { inst with freshness := f }) ⟨.STALE_EPOCH, text "stale freshness update"⟩ env

def update_instance_reachability (r : Registry) (id : ServiceInstanceId) (rc : Enum Reachability)
    (env : AuthorityEnvelope) : Outcome Unit :=
  r.updateInstance id (fun inst => { inst with reachability := rc })
    ⟨.STALE_EPOCH, text "stale reachability update"⟩ env

/-- The instance that an endpoint is bound to is classified again. -/
def reclassifyOwner (r : Registry) (owner : ServiceInstanceId) : Registry :=
  if owner.value ≠ 0 then
    match r.instances[owner]? with
    | some inst => { r with instances := r.instances.insert owner (r.reclassify_lifecycle inst) }
    | none => r
  else r

def update_reachability (r : Registry) (id : EndpointId) (rc : Enum Reachability) (env : AuthorityEnvelope) :
    Outcome Unit :=
  authorized r env <|
  match r.endpoints[id]? with
  | none => (.error ⟨.UNKNOWN_IDENTITY, text "no such endpoint"⟩, r)
  | some ep =>
    if env.endpoint_generation.value ≠ 0 ∧ env.endpoint_generation ≠ ep.generation then
      (.error ⟨.STALE_EPOCH, text "stale endpoint generation"⟩, r.countStale)
    else
      let r := { r with endpoints := r.endpoints.insert id { ep with reachability := rc } }
      (.ok (), (r.reclassifyOwner ep.service_instance).commit_registry_generation)

/-! ## Leases -/

def acquire_lease (r : Registry) (lease : LeaseDescriptor) (env : AuthorityEnvelope) : Outcome LeaseId :=
  authorized r env <|
  let (id, r) : LeaseId × Registry :=
    if lease.lease_id.value = 0 then (⟨r.next_id⟩, { r with next_id := r.next_id + 1 }) else (lease.lease_id, r)
  let copy := { lease with lease_id := id, generation := r.authority.lease_gen.succ }
  (.ok id,
    { r with
      authority := { r.authority with lease_gen := copy.generation }
      leases := r.leases.insert id copy
      accounting := { r.accounting with
        active_leases :=
          if copy.state = LeaseState.ACTIVE then r.accounting.active_leases + 1 else r.accounting.active_leases
        leases := r.accounting.leases + 1 } }.commit_registry_generation)

def renew_lease (r : Registry) (id : LeaseId) (env : AuthorityEnvelope) : Outcome Unit :=
  authorized r env <|
  match r.leases[id]? with
  | none => (.error ⟨.UNKNOWN_IDENTITY, text "no such lease"⟩, r)
  | some lease =>
    if lease.state = LeaseState.REVOKED then (.error ⟨.STALE_RENEWAL, text "lease revoked"⟩, r.countStale)
    else if (r.instances[lease.service_instance]?).any fun inst => inst.boot ≠ env.boot then
      (.error ⟨.STALE_BOOT, text "stale boot cannot renew current lease"⟩, r.countStale)
    else if env.lease_generation.value ≠ 0 ∧ env.lease_generation ≠ lease.generation then
      (.error ⟨.STALE_LEASE_GENERATION, text "stale lease generation renewal"⟩, r.countStale)
    else (.ok (),
      { r with leases := r.leases.insert id { lease with state := LeaseState.ACTIVE } }.commit_registry_generation)

/-- `expire_lease` and `revoke_lease`: an active lease ends in `state`, and both
count it as expired. -/
def endLease (r : Registry) (id : LeaseId) (state : LeaseState) (env : AuthorityEnvelope) : Outcome Unit :=
  authorized r env <|
  match r.leases[id]? with
  | none => (.ok (), r)
  | some lease =>
    let r :=
      if lease.state = LeaseState.ACTIVE then
        { r with
          leases := r.leases.insert id { lease with state := state }
          accounting := { r.accounting with
            expired_leases := r.accounting.expired_leases + 1
            active_leases := decrement r.accounting.active_leases } }
      else r
    (.ok (), r.commit_registry_generation)

def expire_lease (r : Registry) (id : LeaseId) (env : AuthorityEnvelope) : Outcome Unit := r.endLease id .EXPIRED env

def revoke_lease (r : Registry) (id : LeaseId) (env : AuthorityEnvelope) : Outcome Unit := r.endLease id .REVOKED env

/-- Takes no envelope and commits no generation. -/
def mark_lease_revalidation_required (r : Registry) (id : LeaseId) : Registry :=
  match r.leases[id]? with
  | none => r
  | some lease =>
    if lease.state = LeaseState.ACTIVE then
      { r with
        leases := r.leases.insert id { lease with state := LeaseState.REVALIDATION_REQUIRED }
        accounting := { r.accounting with active_leases := decrement r.accounting.active_leases } }
    else r

/-! ## Invalidation, supersession and tombstones -/

def invalidate (r : Registry) (record : InvalidationRecord) (env : AuthorityEnvelope) : Outcome Unit :=
  authorized r env <|
  (.ok (),
    { r with
      invalidations := r.invalidations ++ [record]
      accounting := { r.accounting with invalidations := r.accounting.invalidations + 1 } }.commit_registry_generation)

/-- The old record is marked before the new one is registered, and stays marked
when that throws. -/
def supersede (r : Registry) (scan : List ServiceInstanceId) (old_id : ServiceInstanceId) (new_inst : ServiceInstance)
    (env : AuthorityEnvelope) : Outcome Unit :=
  authorized r env <|
  match r.instances[old_id]? with
  | none => (.error ⟨.UNKNOWN_IDENTITY, text "no such instance"⟩, r)
  | some old =>
    let r := { r with
      instance_history := r.instance_history ++ [old]
      instances := r.instances.insert old_id { old with lifecycle := Lifecycle.SUPERSEDED }
      accounting := { r.accounting with available_instances := decrement r.accounting.available_instances } }
    (r.register_instance scan new_inst env).andThen fun _ r =>
      (.ok (), { r with accounting := { r.accounting with supersessions := r.accounting.supersessions + 1 } })

def create_tombstone (r : Registry) (tomb : TombstoneRecord) (env : AuthorityEnvelope) : Outcome TombstoneId :=
  authorized r env <|
  let (copy, r) : TombstoneRecord × Registry :=
    if tomb.tombstone_id.value = 0 then ({ tomb with tombstone_id := ⟨r.next_id⟩ }, { r with next_id := r.next_id + 1 })
    else (tomb, r)
  (.ok copy.tombstone_id,
    { r with
      tombstones := r.tombstones.insert copy.tombstone_id copy
      accounting := { r.accounting with tombstones := r.accounting.tombstones + 1 } }.commit_registry_generation)

def deregister (r : Registry) (id : ServiceInstanceId) (env : AuthorityEnvelope) : Outcome Unit :=
  authorized r env <|
  match r.instances[id]? with
  | none => (.ok (), r)
  | some inst =>
    if !generation_is_current_generation env inst then
      (.error ⟨.STALE_INSTANCE_GENERATION, text "stale deregister"⟩, r.countStale)
    else (.ok (),
      { r with
        instance_history := r.instance_history ++ [inst]
        instances := r.instances.insert id { inst with lifecycle := Lifecycle.RETIRED }
        accounting := { r.accounting with
          available_instances := decrement r.accounting.available_instances
          deregistrations := r.accounting.deregistrations + 1 } }.commit_registry_generation)

end Registry

end RuntimeRegistry
