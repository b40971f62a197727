import RuntimeRegistry.Rules
/-!
# The death of an incarnation

`revoke_boot_internal` walks the instances once and writes three maps as it goes.
What it leaves is told here map by map, by which instances were walked, so the
order of the walk does not show.
-/
open Lib

namespace RuntimeRegistry

namespace Registry

variable {r : Registry} {boot : WorkerBootId}

/-! ## One round -/

/-- An instance of the dead boot is marked, the others are kept. -/
def markDead (boot : WorkerBootId) (inst : ServiceInstance) : ServiceInstance :=
  if inst.boot = boot then deadInstance inst else inst

def expiredLease (lease : LeaseDescriptor) : LeaseDescriptor :=
  if lease.state = LeaseState.ACTIVE then { lease with state := LeaseState.EXPIRED } else lease

def releasedEndpoint (ep : EndpointDescriptor) : EndpointDescriptor :=
  { ep with service_instance := {}, reachability := Reachability.UNREACHABLE }

@[simp] theorem markDead_boot (inst : ServiceInstance) : (markDead boot inst).boot = inst.boot := by
  unfold markDead; split <;> rfl

@[simp] theorem markDead_lease (inst : ServiceInstance) : (markDead boot inst).lease = inst.lease := by
  unfold markDead; split <;> rfl

@[simp] theorem markDead_endpoints (inst : ServiceInstance) : (markDead boot inst).endpoints = inst.endpoints := by
  unfold markDead; split <;> rfl

@[simp] theorem markDead_instance_id (inst : ServiceInstance) :
    (markDead boot inst).instance_id = inst.instance_id := by
  unfold markDead; split <;> rfl

@[simp] theorem markDead_service_id (inst : ServiceInstance) : (markDead boot inst).service_id = inst.service_id := by
  unfold markDead; split <;> rfl

@[simp] theorem markDead_markDead (inst : ServiceInstance) : markDead boot (markDead boot inst) = markDead boot inst := by
  by_cases h : inst.boot = boot
  · simp [markDead, deadInstance, h]
  · simp [markDead, h]

theorem expireLeaseOf_writes (r : Registry) (inst : ServiceInstance) :
    ∃ leases accounting, r.expireLeaseOf inst = { r with leases := leases, accounting := accounting } := by
  unfold expireLeaseOf
  split_ifs
  · split
    · split_ifs <;> exact ⟨_, _, rfl⟩
    · exact ⟨_, _, rfl⟩
  · exact ⟨_, _, rfl⟩

theorem expireLeaseOf_leases (r : Registry) (inst : ServiceInstance) (l : LeaseId) :
    (r.expireLeaseOf inst).leases[l]? =
      if inst.lease = l ∧ l.value ≠ 0 then r.leases[l]?.map expiredLease else r.leases[l]? := by
  unfold expireLeaseOf
  by_cases h0 : inst.lease.value ≠ 0
  · rw [if_pos h0]
    rcases hl : r.leases[inst.lease]? with _ | lease
    · by_cases h : inst.lease = l
      · subst h; simp [hl]
      · simp [h]
    · by_cases h : inst.lease = l
      · subst h
        by_cases ha : lease.state = LeaseState.ACTIVE <;> simp [hl, ha, h0, expiredLease]
      · by_cases ha : lease.state = LeaseState.ACTIVE <;> simp [ha, h, Std.ExtTreeMap.getElem?_insert]
  · rw [if_neg h0, if_neg]
    rintro ⟨rfl, h⟩
    exact h0 h

/-- The endpoints that the loop over the endpoints of a dead instance leaves. -/
theorem releaseEndpoints_getElem? (id : ServiceInstanceId) (eids : List EndpointId)
    (eps : Map .EndpointId EndpointDescriptor) (eid : EndpointId) :
    (eids.foldl (releaseEndpoint id) eps)[eid]? =
      eps[eid]?.map fun ep => if eid ∈ eids ∧ ep.service_instance = id then releasedEndpoint ep else ep := by
  induction eids generalizing eps with
  | nil => simp
  | cons e eids ih =>
    rw [List.foldl_cons, ih]
    unfold releaseEndpoint
    by_cases he : e = eid
    · subst he
      rcases h : eps[e]? with _ | ep
      · simp [h]
      · by_cases hs : ep.service_instance = id
        · simp [hs, releasedEndpoint]
        · simp [h, hs]
    · have hne : eid ≠ e := fun h => he h.symm
      rcases h : eps[e]? with _ | ep
      · simp [hne]
      · by_cases hs : ep.service_instance = id
        · simp [hs, hne, he, Std.ExtTreeMap.getElem?_insert]
        · simp [hs, hne]

theorem revokeInstance_instances (r : Registry) (id k : ServiceInstanceId) :
    (revokeInstance boot r id).instances[k]? =
      r.instances[k]?.map fun inst => if k = id then markDead boot inst else inst := by
  unfold revokeInstance
  by_cases hk : k = id
  · subst hk
    rcases h : r.instances[k]? with _ | inst
    · simp [h]
    · by_cases hb : inst.boot = boot <;> simp [h, hb, markDead]
  · have hk' : ¬ id = k := fun h => hk h.symm
    rcases h : r.instances[id]? with _ | inst
    · simp [hk]
    · obtain ⟨_, _, hw⟩ := expireLeaseOf_writes r inst
      by_cases hb : inst.boot = boot <;> simp [hb, hk, hk', hw, Std.ExtTreeMap.getElem?_insert]

theorem revokeInstance_leases (r : Registry) (id : ServiceInstanceId) (l : LeaseId) :
    (revokeInstance boot r id).leases[l]? =
      if l.value ≠ 0 ∧ ∃ inst ∈ r.instances[id]?, inst.boot = boot ∧ inst.lease = l then r.leases[l]?.map expiredLease
      else r.leases[l]? := by
  unfold revokeInstance
  rcases h : r.instances[id]? with _ | inst
  · simp
  · by_cases hb : inst.boot = boot
    · simp only [hb, if_true, expireLeaseOf_leases, Option.mem_def, Option.some.injEq, exists_eq_left', true_and]
      simp only [and_comm]
    · simp [hb]

theorem revokeInstance_endpoints (r : Registry) (id : ServiceInstanceId) (eid : EndpointId) :
    (revokeInstance boot r id).endpoints[eid]? =
      r.endpoints[eid]?.map fun ep =>
        if ∃ inst ∈ r.instances[id]?, inst.boot = boot ∧ eid ∈ inst.endpoints ∧ ep.service_instance = inst.instance_id
        then releasedEndpoint ep else ep := by
  unfold revokeInstance
  rcases h : r.instances[id]? with _ | inst
  · simp
  · by_cases hb : inst.boot = boot
    · obtain ⟨_, _, hw⟩ := expireLeaseOf_writes r inst
      simp [hb, hw, releaseEndpoints_getElem?]
    · simp [hb]

/-! ## The walk -/

theorem walk_instances (ids : List ServiceInstanceId) (r : Registry) (k : ServiceInstanceId) :
    (ids.foldl (revokeInstance boot) r).instances[k]? =
      r.instances[k]?.map fun inst => if k ∈ ids then markDead boot inst else inst := by
  induction ids generalizing r with
  | nil => simp
  | cons id ids ih =>
    rw [List.foldl_cons, ih, revokeInstance_instances]
    rcases r.instances[k]? with _ | inst
    · rfl
    · by_cases hk : k = id <;> by_cases hi : k ∈ ids <;> simp [hk, hi]

/-- A walked instance of the boot holds the lease. -/
def HoldsLease (r : Registry) (boot : WorkerBootId) (ids : List ServiceInstanceId) (l : LeaseId) : Prop :=
  l.value ≠ 0 ∧ ∃ id ∈ ids, ∃ inst ∈ r.instances[id]?, inst.boot = boot ∧ inst.lease = l

/-- A walked instance of the boot lists the endpoint, which is bound to it. -/
def HoldsEndpoint (r : Registry) (boot : WorkerBootId) (ids : List ServiceInstanceId) (eid : EndpointId)
    (ep : EndpointDescriptor) : Prop :=
  ∃ id ∈ ids, ∃ inst ∈ r.instances[id]?, inst.boot = boot ∧ eid ∈ inst.endpoints ∧ ep.service_instance = inst.instance_id

/-- A round changes no field of an instance that the walk goes by. -/
theorem exists_revokeInstance {q : ServiceInstance → Prop} (hq : ∀ inst, q (markDead boot inst) ↔ q inst)
    (r : Registry) (id k : ServiceInstanceId) :
    (∃ inst ∈ (revokeInstance boot r id).instances[k]?, q inst) ↔ ∃ inst ∈ r.instances[k]?, q inst := by
  rw [revokeInstance_instances]
  rcases r.instances[k]? with _ | inst
  · simp
  · by_cases hk : k = id <;> simp [hk, hq]

open Classical in
theorem walk_leases (ids : List ServiceInstanceId) (r : Registry) (l : LeaseId) :
    (ids.foldl (revokeInstance boot) r).leases[l]? =
      if r.HoldsLease boot ids l then r.leases[l]?.map expiredLease else r.leases[l]? := by
  induction ids generalizing r with
  | nil => simp [HoldsLease]
  | cons id ids ih =>
    have hh : (revokeInstance boot r id).HoldsLease boot ids l ↔ r.HoldsLease boot ids l := by
      simp only [HoldsLease, exists_revokeInstance (q := fun inst => inst.boot = boot ∧ inst.lease = l) (by simp)]
    have hidem : expiredLease ∘ expiredLease = expiredLease := by
      funext lease
      by_cases h : lease.state = LeaseState.ACTIVE <;> simp [expiredLease, h]
    rw [List.foldl_cons, ih, revokeInstance_leases]
    simp only [hh]
    by_cases h₁ : l.value ≠ 0 ∧ ∃ inst ∈ r.instances[id]?, inst.boot = boot ∧ inst.lease = l
    · have h : r.HoldsLease boot (id :: ids) l := ⟨h₁.1, id, List.mem_cons_self, h₁.2⟩
      rw [if_pos h₁, if_pos h, Option.map_map, hidem, ite_self]
    · rw [if_neg h₁]
      have h : r.HoldsLease boot (id :: ids) l ↔ r.HoldsLease boot ids l := by
        simp only [HoldsLease, List.exists_mem_cons_iff, and_or_left, or_iff_right h₁]
      simp only [h]

open Classical in
theorem walk_endpoints (ids : List ServiceInstanceId) (r : Registry) (eid : EndpointId) :
    (ids.foldl (revokeInstance boot) r).endpoints[eid]? =
      r.endpoints[eid]?.map fun ep => if r.HoldsEndpoint boot ids eid ep then releasedEndpoint ep else ep := by
  induction ids generalizing r with
  | nil => simp [HoldsEndpoint]
  | cons id ids ih =>
    have hh : ∀ ep, (revokeInstance boot r id).HoldsEndpoint boot ids eid ep ↔ r.HoldsEndpoint boot ids eid ep := by
      intro ep
      simp only [HoldsEndpoint, exists_revokeInstance
        (q := fun inst => inst.boot = boot ∧ eid ∈ inst.endpoints ∧ ep.service_instance = inst.instance_id) (by simp)]
    rw [List.foldl_cons, ih, revokeInstance_endpoints]
    rcases r.endpoints[eid]? with _ | ep
    · rfl
    simp only [Option.map_some, Option.some.injEq, hh]
    by_cases h₁ : ∃ inst ∈ r.instances[id]?, inst.boot = boot ∧ eid ∈ inst.endpoints ∧
        ep.service_instance = inst.instance_id
    · have h : r.HoldsEndpoint boot (id :: ids) eid ep := ⟨id, List.mem_cons_self, h₁⟩
      rw [if_pos h₁, if_pos h]
      split <;> rfl
    · rw [if_neg h₁]
      have h : r.HoldsEndpoint boot (id :: ids) eid ep ↔ r.HoldsEndpoint boot ids eid ep := by
        simp only [HoldsEndpoint, List.exists_mem_cons_iff, or_iff_right h₁]
      simp only [h]

/-- What the walk writes. -/
theorem walk_writes (boot : WorkerBootId) (ids : List ServiceInstanceId) (r : Registry) :
    ∃ instances endpoints leases accounting, ids.foldl (revokeInstance boot) r =
      { r with instances := instances, endpoints := endpoints, leases := leases, accounting := accounting } := by
  induction ids generalizing r with
  | nil => exact ⟨_, _, _, _, rfl⟩
  | cons id ids ih =>
    have hone : ∃ instances endpoints leases accounting, revokeInstance boot r id =
        { r with instances := instances, endpoints := endpoints, leases := leases, accounting := accounting } := by
      unfold revokeInstance
      split
      · split_ifs
        · obtain ⟨_, _, hw⟩ := expireLeaseOf_writes r ‹_›
          simp only [hw]
          exact ⟨_, _, _, _, rfl⟩
        · exact ⟨_, _, _, _, rfl⟩
      · exact ⟨_, _, _, _, rfl⟩
    obtain ⟨_, _, _, _, h⟩ := hone
    obtain ⟨_, _, _, _, h'⟩ := ih (revokeInstance boot r id)
    rw [List.foldl_cons, h', h]
    exact ⟨_, _, _, _, rfl⟩

/-! ## The death of a boot -/

/-- What the death of a boot writes besides the authority state. -/
theorem revoke_writes (r : Registry) (boot : WorkerBootId) :
    ∃ instances endpoints leases accounting, r.revoke_boot_internal boot = { r with
      authority := if r.authority.is_boot_live boot then revokeAuthority r.authority boot else r.authority
      instances := instances, endpoints := endpoints, leases := leases, accounting := accounting } := by
  unfold revoke_boot_internal
  split_ifs
  · obtain ⟨_, _, _, _, h⟩ := walk_writes boot r.instances.keys
      { r with authority := revokeAuthority r.authority boot }
    exact ⟨_, _, _, _, h⟩
  · exact ⟨_, _, _, _, rfl⟩

theorem revoke_authority (r : Registry) (boot : WorkerBootId) : (r.revoke_boot_internal boot).authority =
    if r.authority.is_boot_live boot then revokeAuthority r.authority boot else r.authority := by
  obtain ⟨_, _, _, _, h⟩ := revoke_writes r boot
  rw [h]

/-- Every stored instance of a live boot is marked when the boot dies. -/
theorem revoke_instances (r : Registry) (boot : WorkerBootId) (k : ServiceInstanceId) :
    (r.revoke_boot_internal boot).instances[k]? =
      r.instances[k]?.map fun inst => if r.authority.is_boot_live boot then markDead boot inst else inst := by
  unfold revoke_boot_internal
  split_ifs
  · rw [walk_instances]
    rcases h : r.instances[k]? with _ | inst
    · rfl
    · have hk : k ∈ r.instances.keys := by simp [Std.ExtTreeMap.mem_keys, Std.ExtTreeMap.mem_iff_isSome_getElem?, h]
      simp [hk]
  · simp

/-! ## Adoption -/

/-- The boot is entered as the current one of the worker. -/
def enterBoot (worker : WorkerId) (boot : WorkerBootId) (r : Registry) : Registry :=
  { r with
    authority := { r.authority with
      current_boot := r.authority.current_boot.insert worker boot
      live_boots := r.authority.live_boots.insert boot
      boot_worker := r.authority.boot_worker.insert boot worker }
    accounting := { r.accounting with worker_restarts := r.accounting.worker_restarts + 1 } }

/-- An adoption enters the next boot, after the death of the boot it replaces. -/
theorem adopt_worker_rule {P : Registry → Prop} {worker : WorkerId}
    (first : (∀ prev, r.authority.current_boot[worker]? = some prev → prev = ⟨r.next_boot + 1⟩) →
      P (enterBoot worker ⟨r.next_boot + 1⟩ { r with next_boot := r.next_boot + 1 }))
    (again : ∀ prev, r.authority.current_boot[worker]? = some prev → prev ≠ ⟨r.next_boot + 1⟩ →
      P (enterBoot worker ⟨r.next_boot + 1⟩ ({ r with next_boot := r.next_boot + 1 }.revoke_boot_internal prev))) :
    P (r.adopt_worker worker).2 := by
  unfold adopt_worker
  dsimp only
  split
  · rename_i prev hprev
    split_ifs with h
    · exact again prev hprev h
    · exact first fun p hp => by
        obtain rfl : prev = p := Option.some.inj (hprev.symm.trans hp)
        exact not_not.1 h
  · rename_i hnone
    exact first fun p hp => by simp [hnone] at hp

/-- What an adoption writes. -/
theorem adopt_worker_writes (r : Registry) (worker : WorkerId) :
    ∃ authority instances endpoints leases accounting, (r.adopt_worker worker).2 = { r with
      authority := authority, instances := instances, endpoints := endpoints, leases := leases, accounting := accounting
      next_boot := r.next_boot + 1 } := by
  refine adopt_worker_rule (P := fun t => ∃ authority instances endpoints leases accounting, t = { r with
    authority := authority, instances := instances, endpoints := endpoints, leases := leases, accounting := accounting
    next_boot := r.next_boot + 1 }) (fun _ => ⟨_, _, _, _, _, rfl⟩) fun prev _ _ => ?_
  obtain ⟨_, _, _, _, h⟩ := revoke_writes { r with next_boot := r.next_boot + 1 } prev
  rw [h]
  exact ⟨_, _, _, _, _, rfl⟩

end Registry

end RuntimeRegistry
