import RuntimeRegistry.Changes
import RuntimeRegistry.Records
/-!
# What a death leaves, and what it leaves alone

The walk of `revoke_boot_internal` follows the buckets of a hash table. Its rounds
commute, whatever leases and endpoints the instances share, so the state it ends
in is the same for every order.
-/
open Lib

namespace RuntimeRegistry

namespace Registry

variable {r t : Registry} {boot : WorkerBootId}

/-! ## Rounds commute -/

/-- What a dead instance leaves of an endpoint, that it lists if `p` holds. -/
def releasedBy (p : Prop) [Decidable p] (id : ServiceInstanceId) (ep : EndpointDescriptor) : EndpointDescriptor :=
  if p ∧ ep.service_instance = id then releasedEndpoint ep else ep

/-- An endpoint that is released already looks as if it were released once more. -/
theorem releasedBy_twice (p p' : Prop) [Decidable p] [Decidable p'] (id id' : ServiceInstanceId) (ep : EndpointDescriptor) :
    releasedBy p' id' (releasedBy p id ep) =
      if p ∧ ep.service_instance = id ∨ p' ∧ ep.service_instance = id' then releasedEndpoint ep else ep := by
  have hagain : releasedBy p' id' (releasedEndpoint ep) = releasedEndpoint ep := by
    unfold releasedBy
    split_ifs <;> rfl
  by_cases h : p ∧ ep.service_instance = id
  · have hfirst : releasedBy p id ep = releasedEndpoint ep := if_pos h
    rw [if_pos (.inl h), hfirst, hagain]
  · have hfirst : releasedBy p id ep = ep := if_neg h
    rw [hfirst, releasedBy]
    simp only [h, false_or]

theorem releaseEndpoints_comm (id id' : ServiceInstanceId) (eids eids' : List EndpointId)
    (eps : Map .EndpointId EndpointDescriptor) :
    eids'.foldl (releaseEndpoint id') (eids.foldl (releaseEndpoint id) eps) =
      eids.foldl (releaseEndpoint id) (eids'.foldl (releaseEndpoint id') eps) := by
  have hone : ∀ (id : ServiceInstanceId) (eids : List EndpointId) (eps : Map .EndpointId EndpointDescriptor)
      (eid : EndpointId), (eids.foldl (releaseEndpoint id) eps)[eid]? = eps[eid]?.map (releasedBy (eid ∈ eids) id) :=
    fun id eids eps eid => releaseEndpoints_getElem? id eids eps eid
  refine Std.ExtTreeMap.ext_getElem? fun eid => ?_
  rw [hone, hone, hone, hone, Option.map_map, Option.map_map]
  congr 1
  funext ep
  simp only [Function.comp_apply, releasedBy_twice, or_comm]

/-- The end of a lease goes by the leases alone. -/
theorem expireLeaseOf_with (r : Registry) (inst : ServiceInstance) (m : Map .ServiceInstanceId ServiceInstance)
    (eps : Map .EndpointId EndpointDescriptor) :
    ({ r with instances := m, endpoints := eps } : Registry).expireLeaseOf inst =
      { r.expireLeaseOf inst with instances := m, endpoints := eps } := by
  unfold expireLeaseOf
  split_ifs
  · rcases r.leases[inst.lease]? with _ | lease
    · rfl
    · dsimp only
      split_ifs <;> rfl
  · rfl

/-- The leases and the gauges after the end of a lease. -/
theorem expireLeaseOf_active {inst : ServiceInstance} {lease : LeaseDescriptor} (h0 : inst.lease.value ≠ 0)
    (hl : r.leases[inst.lease]? = some lease) (ha : lease.state = LeaseState.ACTIVE) :
    r.expireLeaseOf inst = { r with
      leases := r.leases.insert inst.lease { lease with state := LeaseState.EXPIRED }
      accounting := { r.accounting with
        expired_leases := r.accounting.expired_leases + 1
        active_leases := decrement r.accounting.active_leases } } := by
  simp [expireLeaseOf, h0, hl, ha]

/-- The lease of the instance is not there to end. -/
def Dormant (r : Registry) (inst : ServiceInstance) : Prop :=
  inst.lease.value = 0 ∨ ∀ lease, r.leases[inst.lease]? = some lease → lease.state ≠ LeaseState.ACTIVE

theorem expireLeaseOf_dormant {inst : ServiceInstance} (h : r.Dormant inst) : r.expireLeaseOf inst = r := by
  unfold expireLeaseOf
  rcases h with h0 | hl
  · simp [h0]
  · split_ifs
    · rcases hlease : r.leases[inst.lease]? with _ | lease
      · rfl
      · simp [hl lease hlease]
    · rfl

theorem Dormant.keeps {inst inst' : ServiceInstance} (h : r.Dormant inst) : (r.expireLeaseOf inst').Dormant inst := by
  refine h.imp_right fun hl lease hlease => ?_
  rw [expireLeaseOf_leases] at hlease
  split_ifs at hlease
  · obtain ⟨old, hold, rfl⟩ := Option.map_eq_some_iff.1 hlease
    unfold expiredLease
    split_ifs with ha
    · simp
    · exact ha
  · exact hl lease hlease

theorem expireLeaseOf_comm (r : Registry) (inst inst' : ServiceInstance) :
    (r.expireLeaseOf inst).expireLeaseOf inst' = (r.expireLeaseOf inst').expireLeaseOf inst := by
  by_cases h : inst.lease = inst'.lease
  · unfold expireLeaseOf
    rw [h]
  by_cases hi : r.Dormant inst
  · rw [expireLeaseOf_dormant hi, expireLeaseOf_dormant hi.keeps]
  by_cases hi' : r.Dormant inst'
  · rw [expireLeaseOf_dormant hi', expireLeaseOf_dormant hi'.keeps]
  -- two different active leases: each is there to end after the other
  simp only [Dormant, not_or, not_forall, not_not] at hi hi'
  obtain ⟨h0, lease, hl, ha⟩ := hi
  obtain ⟨h0', lease', hl', ha'⟩ := hi'
  have hafter : (r.expireLeaseOf inst).leases[inst'.lease]? = some lease' := by
    rw [expireLeaseOf_leases, if_neg (fun hsame => h hsame.1), hl']
  have hafter' : (r.expireLeaseOf inst').leases[inst.lease]? = some lease := by
    rw [expireLeaseOf_leases, if_neg (fun hsame => h hsame.1.symm), hl]
  rw [expireLeaseOf_active h0' hafter ha', expireLeaseOf_active h0 hafter' ha, expireLeaseOf_active h0 hl ha,
    expireLeaseOf_active h0' hl' ha']
  dsimp only
  rw [insert_comm _ h]

/-- A round over an instance of the boot. -/
theorem revokeInstance_dead {id : ServiceInstanceId} {inst : ServiceInstance} (hi : r.instances[id]? = some inst)
    (hb : inst.boot = boot) : revokeInstance boot r id = { r.expireLeaseOf inst with
      instances := r.instances.insert id (deadInstance inst)
      endpoints := inst.endpoints.foldl (releaseEndpoint inst.instance_id) r.endpoints } := by
  obtain ⟨_, _, hw⟩ := expireLeaseOf_writes r inst
  simp [revokeInstance, hi, hb, hw]

/-- A round over nothing, or over an instance of another boot. -/
theorem revokeInstance_other {id : ServiceInstanceId} (h : ∀ inst, r.instances[id]? = some inst → inst.boot ≠ boot) :
    revokeInstance boot r id = r := by
  unfold revokeInstance
  rcases hi : r.instances[id]? with _ | inst
  · rfl
  · simp [h inst hi]

/-- A round does not give an instance to the boot. -/
theorem revokeInstance_boots {boot' : WorkerBootId} {id : ServiceInstanceId} (id' : ServiceInstanceId)
    (h : ∀ inst, r.instances[id]? = some inst → inst.boot ≠ boot) :
    ∀ inst, (revokeInstance boot' r id').instances[id]? = some inst → inst.boot ≠ boot := by
  intro inst hi
  rw [revokeInstance_instances] at hi
  obtain ⟨old, hold, rfl⟩ := Option.map_eq_some_iff.1 hi
  unfold markDead
  split_ifs <;> exact h old hold

/-- Rounds commute, whether they belong to one death or to two. -/
theorem revokeInstance_comm (r : Registry) (boot boot' : WorkerBootId) (id id' : ServiceInstanceId) :
    revokeInstance boot' (revokeInstance boot r id) id' = revokeInstance boot (revokeInstance boot' r id') id := by
  by_cases ho : ∀ inst, r.instances[id]? = some inst → inst.boot ≠ boot
  · rw [revokeInstance_other ho, revokeInstance_other (revokeInstance_boots id' ho)]
  by_cases ho' : ∀ inst, r.instances[id']? = some inst → inst.boot ≠ boot'
  · rw [revokeInstance_other ho', revokeInstance_other (revokeInstance_boots id ho')]
  push Not at ho ho'
  obtain ⟨inst, hi, hb⟩ := ho
  obtain ⟨inst', hi', hb'⟩ := ho'
  by_cases hid : id = id'
  · -- one instance, which has one boot
    subst hid
    obtain rfl : inst = inst' := Option.some.inj (hi.symm.trans hi')
    rw [← hb, ← hb']
  have hkept : ∀ (b : WorkerBootId) (j k : ServiceInstanceId), k ≠ j → (revokeInstance b r j).instances[k]? = r.instances[k]? := by
    intro b j k hk
    rw [revokeInstance_instances]
    rcases r.instances[k]? <;> simp [hk]
  -- two instances: the three maps are written apart from each other
  rw [revokeInstance_dead ((hkept boot id id' (Ne.symm hid)).trans hi') hb',
    revokeInstance_dead ((hkept boot' id' id hid).trans hi) hb, revokeInstance_dead hi hb, revokeInstance_dead hi' hb']
  simp only [expireLeaseOf_with]
  rw [expireLeaseOf_comm, insert_comm _ hid, releaseEndpoints_comm]

/-- The death of a boot, with the instances walked in the order of `scan`. -/
def revokeInOrder (scan : List ServiceInstanceId) (r : Registry) (boot : WorkerBootId) : Registry :=
  if r.authority.is_boot_live boot then
    scan.foldl (revokeInstance boot) { r with authority := revokeAuthority r.authority boot }
  else r

theorem revokeInOrder_eq {scan : List ServiceInstanceId} (hscan : scan.Perm r.instances.keys) :
    revokeInOrder scan r boot = r.mark_worker_died boot := by
  unfold revokeInOrder mark_worker_died revoke_boot_internal
  rw [hscan.foldl_eq' fun id _ id' _ s => revokeInstance_comm s boot boot id id']

/-! ## Effect and frame -/

/-- An instance of the boot lists the endpoint, which is bound to it. -/
def Holds (r : Registry) (boot : WorkerBootId) (eid : EndpointId) (ep : EndpointDescriptor) : Prop :=
  ∃ (k : ServiceInstanceId) (inst : ServiceInstance), r.instances[k]? = some inst ∧ inst.boot = boot ∧ eid ∈ inst.endpoints ∧ ep.service_instance = k

/-- An instance of the boot names the lease. -/
def Names (r : Registry) (boot : WorkerBootId) (l : LeaseId) : Prop :=
  l.value ≠ 0 ∧ ∃ (k : ServiceInstanceId) (inst : ServiceInstance), r.instances[k]? = some inst ∧ inst.boot = boot ∧ inst.lease = l

/-- `t` is `r` after the death of the boot. -/
structure Death (r : Registry) (boot : WorkerBootId) (t : Registry) : Prop where
  instances : ∀ (k : ServiceInstanceId) (inst : ServiceInstance), r.instances[k]? = some inst → inst.boot = boot →
    ∃ dead : ServiceInstance, t.instances[k]? = some dead ∧ dead.lifecycle = Lifecycle.STALE ∧
      dead.freshness = Freshness.STALE ∧ dead.readiness = Readiness.NOT_READY ∧
      dead.reachability = Reachability.UNREACHABLE
  leases : ∀ l, r.Names boot l → ∀ lease : LeaseDescriptor, t.leases[l]? = some lease → lease.state ≠ LeaseState.ACTIVE
  endpoints : ∀ (eid : EndpointId) (ep : EndpointDescriptor), r.endpoints[eid]? = some ep → r.Holds boot eid ep →
    ∃ ep' : EndpointDescriptor, t.endpoints[eid]? = some ep' ∧ ep'.service_instance = {} ∧
      ep'.reachability = Reachability.UNREACHABLE
  other_instances : ∀ k : ServiceInstanceId, (∀ inst, r.instances[k]? = some inst → inst.boot ≠ boot) →
    t.instances[k]? = r.instances[k]?
  other_leases : ∀ l : LeaseId, ¬ r.Names boot l → t.leases[l]? = r.leases[l]?
  other_endpoints : ∀ eid : EndpointId, (∀ ep, r.endpoints[eid]? = some ep → ¬ r.Holds boot eid ep) →
    t.endpoints[eid]? = r.endpoints[eid]?
  any_order : ∀ scan, scan.Perm r.instances.keys → revokeInOrder scan r boot = t
  again : t.mark_worker_died boot = t

theorem mem_keys {k : ServiceInstanceId} {inst : ServiceInstance} (h : r.instances[k]? = some inst) :
    k ∈ r.instances.keys := by
  simp [Std.ExtTreeMap.mem_keys, Std.ExtTreeMap.mem_iff_isSome_getElem?, h]

theorem holdsLease_iff (a : RegistryAuthority) (l : LeaseId) :
    ({ r with authority := a } : Registry).HoldsLease boot r.instances.keys l ↔ r.Names boot l := by
  refine and_congr_right fun _ => ?_
  constructor
  · rintro ⟨k, _, inst, hi, hb, hl⟩
    exact ⟨k, inst, hi, hb, hl⟩
  · rintro ⟨k, inst, hi, hb, hl⟩
    exact ⟨k, mem_keys hi, inst, hi, hb, hl⟩

theorem holdsEndpoint_iff (hkey : wellKeyed.Holds r) (a : RegistryAuthority) (eid : EndpointId) (ep : EndpointDescriptor) :
    ({ r with authority := a } : Registry).HoldsEndpoint boot r.instances.keys eid ep ↔ r.Holds boot eid ep := by
  constructor
  · rintro ⟨k, _, inst, hi, hb, hlist, hbound⟩
    exact ⟨k, inst, hi, hb, hlist, hbound.trans (hkey.instances k inst hi)⟩
  · rintro ⟨k, inst, hi, hb, hlist, hbound⟩
    exact ⟨k, mem_keys hi, inst, hi, hb, hlist, hbound.trans (hkey.instances k inst hi).symm⟩

/-- A boot that died is not live any more. -/
theorem revoked_not_live (r : Registry) (boot : WorkerBootId) :
    (r.mark_worker_died boot).authority.is_boot_live boot = false := by
  rw [mark_worker_died, revoke_authority]
  split_ifs with hlive
  · simp [revokeAuthority, RegistryAuthority.is_boot_live]
  · simpa using hlive

/-- The death of a live boot has its effect on the instances of the boot, their
leases and their endpoints, and on nothing else; once, and in no order. -/
theorem worker_death (h : r.Reachable) (hlive : r.authority.is_boot_live boot = true) :
    r.Death boot (r.mark_worker_died boot) := by
  have hkey := wellKeyed_reachable h
  have hwalk : r.mark_worker_died boot =
      r.instances.keys.foldl (revokeInstance boot) { r with authority := revokeAuthority r.authority boot } := by
    rw [mark_worker_died, revoke_boot_internal, if_pos hlive]
  have hinstances : ∀ k : ServiceInstanceId, (r.mark_worker_died boot).instances[k]? = r.instances[k]?.map (markDead boot) := by
    intro k
    rw [mark_worker_died, revoke_instances]
    simp only [hlive, if_true]
  refine ⟨?instances, ?leases, ?endpoints, ?other_instances, ?other_leases, ?other_endpoints, ?any_order, ?again⟩
  case instances =>
    intro k inst hi hb
    refine ⟨deadInstance inst, ?_, rfl, rfl, rfl, rfl⟩
    rw [hinstances, hi, Option.map_some, markDead, if_pos hb]
  case leases =>
    intro l hl lease hlease
    rw [hwalk, walk_leases, if_pos ((holdsLease_iff _ l).2 hl)] at hlease
    obtain ⟨old, _, rfl⟩ := Option.map_eq_some_iff.1 hlease
    unfold expiredLease
    split_ifs with ha
    · simp
    · exact ha
  case endpoints =>
    intro eid ep hep hh
    refine ⟨releasedEndpoint ep, ?_, rfl, rfl⟩
    rw [hwalk, walk_endpoints, hep, Option.map_some, if_pos ((holdsEndpoint_iff hkey _ eid ep).2 hh)]
  case other_instances =>
    intro k hother
    rw [hinstances]
    rcases hi : r.instances[k]? with _ | inst
    · rfl
    · rw [Option.map_some, markDead, if_neg (hother inst hi)]
  case other_leases =>
    intro l hl
    rw [hwalk, walk_leases, if_neg (mt (holdsLease_iff _ l).1 hl)]
  case other_endpoints =>
    intro eid hother
    rw [hwalk, walk_endpoints]
    rcases hep : r.endpoints[eid]? with _ | ep
    · rfl
    · rw [Option.map_some, if_neg (mt (holdsEndpoint_iff hkey _ eid ep).1 (hother ep hep))]
  case any_order =>
    exact fun scan hscan => revokeInOrder_eq hscan
  case again =>
    have hdead := r.revoked_not_live boot
    generalize r.mark_worker_died boot = t at hdead
    simp [mark_worker_died, revoke_boot_internal, hdead]

theorem worker_death_sample : Sample.registry.Death ⟨101⟩ (Sample.registry.mark_worker_died ⟨101⟩) :=
  worker_death Sample.registry_reachable.reachable (by decide +kernel)

end Registry

end RuntimeRegistry
