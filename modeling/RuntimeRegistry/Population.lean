import RuntimeRegistry.Numbering
import RuntimeRegistry.Refusals
import RuntimeRegistry.LoadFailures
/-!
# Population counters

Eleven counters say how many records the maps hold. They are moved by hand beside each
insert, and an insert under a key that is taken moves the counter and not the map. So
they are exact in the runs that store each counted record under a key of its own.
-/
open Lib

namespace RuntimeRegistry

/-- The kinds of records that are counted. -/
inductive Population
  | service | inst | runtime | runtime_instance | node | endpoint | protocol | backend | device | capability | lease
deriving DecidableEq

namespace Population

def counter (a : Accounting) : Population → Int
  | .service => a.services
  | .inst => a.service_instances
  | .runtime => a.runtimes
  | .runtime_instance => a.runtime_instances
  | .node => a.nodes
  | .endpoint => a.endpoints
  | .protocol => a.protocols
  | .backend => a.backends
  | .device => a.devices
  | .capability => a.capabilities
  | .lease => a.leases

def size (r : Registry) : Population → ℕ
  | .service => r.services.size
  | .inst => r.instances.size
  | .runtime => r.runtimes.size
  | .runtime_instance => r.runtime_instances.size
  | .node => r.nodes.size
  | .endpoint => r.endpoints.size
  | .protocol => r.protocols.size
  | .backend => r.backends.size
  | .device => r.devices.size
  | .capability => r.capabilities.size
  | .lease => r.leases.size

/-- What the counter shows above what the map holds. -/
def drift (r : Registry) (K : Population) : Int := K.counter r.accounting - K.size r

end Population

/-- An instance of one runtime. -/
def Sample.runtime (id : UInt64) : RuntimeDescriptor :=
  { runtime_id := ⟨1⟩, runtime_instance := ⟨id⟩, generation := ⟨1⟩ }

namespace Registry

variable {r s t : Registry} {env : AuthorityEnvelope} {scan : List ServiceInstanceId}

/-- Every counter is the size of its map. -/
def Balanced (r : Registry) : Prop := ∀ K : Population, K.counter r.accounting = K.size r

/-- The counters have moved as the maps have. -/
def Level (r t : Registry) : Prop := ∀ K : Population, K.drift t = K.drift r

theorem Level.refl (r : Registry) : r.Level r := fun _ => rfl

theorem Level.trans (h : r.Level s) (h' : s.Level t) : r.Level t := fun K => (h' K).trans (h K)

theorem Level.balanced (h : r.Level t) (hr : r.Balanced) : t.Balanced := by
  intro K
  have hK := h K
  have hzero := hr K
  rw [Population.drift, Population.drift] at hK
  omega

/-- A write that moves neither the counters nor the sizes. -/
theorem Level.write (hc : ∀ K : Population, K.counter t.accounting = K.counter r.accounting)
    (hs : ∀ K : Population, K.size t = K.size r) : r.Level t := by
  intro K
  rw [Population.drift, Population.drift, hc, hs]

theorem Level.rebuild_indexes (r : Registry) : r.Level r.rebuild_indexes := by
  obtain ⟨_, _, _, _, h⟩ := rebuild_indexes_writes r
  rw [h]
  exact .write (fun K => by cases K <;> rfl) fun K => by cases K <;> rfl

theorem size_replaced {tag : IdTag} {ρ : Type} {m : Map tag ρ} {k : Id tag} {x y : ρ} (h : m[k]? = some y) :
    (m.insert k x).size = m.size := by
  have hk : k ∈ m := by
    rw [Std.ExtTreeMap.mem_iff_isSome_getElem?, h]
    rfl
  simp [Std.ExtTreeMap.size_insert, hk]

theorem size_added {tag : IdTag} {ρ : Type} {m : Map tag ρ} {k : Id tag} {x : ρ} (h : k ∉ m) :
    (m.insert k x).size = m.size + 1 := by
  simp [Std.ExtTreeMap.size_insert, h]

/-- One record more, and counted. -/
theorem drift_added {tag : IdTag} {ρ : Type} {m : Map tag ρ} {k : Id tag} {x : ρ} (n : Int) (h : k ∉ m) :
    n + 1 - ((m.insert k x).size : Int) = n - (m.size : Int) := by
  rw [size_added h]
  omega

theorem Level.setInstance {id : ServiceInstanceId} {old new : ServiceInstance} (h : r.instances[id]? = some old) :
    r.Level { r with instances := r.instances.insert id new } :=
  .write (fun K => by cases K <;> rfl) fun K => by cases K <;> first | rfl | exact size_replaced h

theorem Level.setEndpoint {id : EndpointId} {old new : EndpointDescriptor} (h : r.endpoints[id]? = some old) :
    r.Level { r with endpoints := r.endpoints.insert id new } :=
  .write (fun K => by cases K <;> rfl) fun K => by cases K <;> first | rfl | exact size_replaced h

theorem Level.setLease {id : LeaseId} {old new : LeaseDescriptor} (h : r.leases[id]? = some old) :
    r.Level { r with leases := r.leases.insert id new } :=
  .write (fun K => by cases K <;> rfl) fun K => by cases K <;> first | rfl | exact size_replaced h

/-- Counts of other things do not matter. -/
theorem Level.recount {accounting : Accounting} (hc : ∀ K : Population, K.counter accounting = K.counter r.accounting) :
    r.Level { r with accounting := accounting } :=
  .write hc fun K => by cases K <;> rfl

theorem Level.commit (r : Registry) : r.Level r.commit_registry_generation :=
  .write (fun K => by cases K <;> rfl) fun K => by cases K <;> rfl

theorem Level.countDuplicate (r : Registry) : r.Level r.countDuplicate := .recount fun K => by cases K <;> rfl

theorem Level.countStale (r : Registry) : r.Level r.countStale := .recount fun K => by cases K <;> rfl

theorem Level.setNextId (r : Registry) (n : UInt64) : r.Level { r with next_id := n } :=
  .write (fun K => by cases K <;> rfl) fun K => by cases K <;> rfl

/-! ## Descriptors -/

section
variable {tag : IdTag} {gen : GenTag} {ρ : Type}

/-- The registration stores a record as new. -/
def Domain.Inserts (D : Domain tag gen ρ) (r : Registry) (x : ρ) (env : AuthorityEnvelope) : Prop :=
  r.Accepts env ∧ (D.table r)[D.id x]? = none ∧ D.fenced x r = none

/-- The id that a new record is stored under. -/
def Domain.storedId (D : Domain tag gen ρ) (r : Registry) (x : ρ) : Id tag := D.id (D.assign x r).1

/-- What it stores as new stands under no key that is taken. -/
def Domain.Anew (D : Domain tag gen ρ) (r : Registry) (x : ρ) (env : AuthorityEnvelope) : Prop :=
  D.Inserts r x env → D.storedId r x ∉ D.table r

theorem Domain.assign_next (D : Domain tag gen ρ) (x : ρ) (r : Registry) : ∃ n, (D.assign x r).2 = { r with next_id := n } := by
  unfold Domain.assign
  split
  · split_ifs
    · exact ⟨_, rfl⟩
    · exact ⟨_, rfl⟩
  · exact ⟨_, rfl⟩

theorem registerRecord_level {D : Domain tag gen ρ} {x : ρ}
    (hreplace : ∀ current, (D.table r)[D.id x]? = some current → r.Level (D.commit x (D.replace current x r)).2)
    (hinsert : D.Inserts r x env → ∀ n,
      r.Level (D.commit (D.assign x r).1 (D.insert (D.assign x r).1 { r with next_id := n })).2) : r.Level (registerRecord D r x env).2 := by
  apply registerRecord_rule D (P := fun o => r.Level o.2)
  case rejected => exact fun _ _ => .refl r
  case repeated => exact fun _ _ _ _ _ => .refl r
  case stale => exact fun _ _ _ _ => .countDuplicate r
  case replaced => exact fun _ current hold _ => hreplace current hold
  case fenced => exact fun _ _ _ _ => .countStale r
  case inserted =>
    intro ha hnone hfree
    obtain ⟨n, hnext⟩ := D.assign_next x r
    rw [hnext]
    exact hinsert ⟨ha, hnone, hfree⟩ n

end

theorem not_mem_of_getElem? {tag : IdTag} {ρ : Type} {m : Map tag ρ} {k : Id tag} (h : m[k]? = none) : k ∉ m := by
  rw [Std.ExtTreeMap.mem_iff_isSome_getElem?, h]
  exact Bool.false_ne_true

theorem not_mem_replaced {tag : IdTag} {ρ : Type} {m : Map tag ρ} {k l : Id tag} {x y : ρ} (h : m[k]? = some y)
    (hl : l ∉ m) : l ∉ m.insert k x := by
  rw [Std.ExtTreeMap.mem_insert]
  rintro (heq | hmem)
  · obtain rfl : k = l := by simpa using heq
    exact hl (holds_of_getElem? h)
  · exact hl hmem

/-- The call stores what it counts under no key that is taken; an image is read to its end. -/
def Anew (r : Registry) (e : Event) : Prop :=
  match e.op with
  | .register_runtime rt env => runtimes_.Anew r rt env ∧ (runtimes_.Inserts r rt env → rt.runtime_id ∉ r.runtimes)
  | .register_endpoint ep env => endpoints_.Anew r ep env
  | .register_capability cap env => capabilities_.Anew r cap env
  | .register_backend bd env => backends_.Anew r bd env
  | .register_device dd env => devices_.Anew r dd env
  | .register_instance inst env => r.Accepts env → r.Admissible e.scan inst → r.assignedId inst ∉ r.instances
  | .supersede old_id inst env => r.Accepts env → ∀ old, r.instances[old_id]? = some old →
      (r.markSuperseded old_id old).Admissible e.scan inst → r.assignedId inst ∉ r.instances
  | .acquire_lease lease env => r.Accepts env → r.assignedLease lease ∉ r.leases
  | .load_from data => Admitted data → Complete data
  | _ => True

theorem runtimes_assign_runtime_id (rt : RuntimeDescriptor) (r : Registry) :
    (runtimes_.assign rt r).1.runtime_id = rt.runtime_id := by
  unfold Domain.assign runtimes_
  dsimp only
  split_ifs
  · rfl
  · rfl

theorem descriptor_level {e : Event} (hc : e.op.class = .descriptor) (hnew : r.Anew e) :
    r.Level (r.exec e.scan e.op).2 := by
  obtain ⟨op, scan, reply⟩ := e
  cases op <;> simp only [Op.class, reduceCtorEq] at hc
  case register_service svc env =>
    simp only [exec, Outcome.map_snd, register_service, Outcome.void_snd]
    refine registerRecord_level (fun current hold => .trans ?_ (.rebuild_indexes _)) fun hin n => .trans (fun K => ?_)
      (.rebuild_indexes _)
    · exact .write (fun K => by cases K <;> rfl) fun K => by cases K <;> first | rfl | exact size_replaced hold
    · have hfree := not_mem_of_getElem? hin.2.1
      cases K <;> first | rfl | exact drift_added _ hfree
  case register_protocol x env | register_node x env =>
    simp only [exec, Outcome.map_snd, register_protocol, register_node, Outcome.void_snd]
    refine registerRecord_level (fun current hold => ?_) fun hin n K => ?_
    · exact .write (fun K => by cases K <;> rfl) fun K => by cases K <;> first | rfl | exact size_replaced hold
    · have hfree := not_mem_of_getElem? hin.2.1
      cases K <;> first | rfl | exact drift_added _ hfree
  case register_runtime rt env =>
    refine registerRecord_level (fun current hold => ?_) fun hin n K => ?_
    · exact .write (fun K => by cases K <;> rfl) fun K => by cases K <;> first | rfl | exact size_replaced hold
    · -- one record goes under two keys, and both kinds count it
      have hfree := hnew.1 hin
      have hruntime : (runtimes_.assign rt r).1.runtime_id ∉ r.runtimes := by
        rw [runtimes_assign_runtime_id]
        exact hnew.2 hin
      cases K <;> first | rfl | exact drift_added _ hfree | exact drift_added _ hruntime
  case register_endpoint x env | register_capability x env | register_backend x env | register_device x env =>
    refine registerRecord_level (fun current hold => ?_) fun hin n K => ?_
    · exact .write (fun K => by cases K <;> rfl) fun K => by cases K <;> first | rfl | exact size_replaced hold
    · have hfree := hnew hin
      cases K <;> first | rfl | exact drift_added _ hfree

/-! ## Instances -/

theorem claimEndpoint_level (r : Registry) (id : ServiceInstanceId) (eid : EndpointId) :
    r.Level (r.claimEndpoint id eid).2 := by
  unfold claimEndpoint
  split
  · exact .refl r
  · rename_i ep hep
    split_ifs
    · exact .setEndpoint hep
    · exact .countDuplicate r
    · exact .setEndpoint hep
    · exact .refl r

theorem claimEndpoints_level (r : Registry) (id : ServiceInstanceId) (eids : List EndpointId) :
    r.Level (r.claimEndpoints id eids).2 := by
  induction eids generalizing r with
  | nil => exact .refl r
  | cons eid eids ih =>
    have hone := r.claimEndpoint_level id eid
    rw [claimEndpoints]
    rcases hc : r.claimEndpoint id eid with ⟨_ | _, s⟩
    · rwa [hc] at hone
    · rw [hc] at hone
      exact hone.trans (ih s)

theorem storeInstance_level {copy : ServiceInstance} (hfree : copy.instance_id ∉ r.instances) :
    r.Level (r.storeInstance copy) := by
  have hadded : r.Level { r with
      instances := r.instances.insert copy.instance_id copy
      instance_history := r.instance_history ++ [copy]
      accounting := { r.accounting with
        service_instances := r.accounting.service_instances + 1
        registrations := r.accounting.registrations + 1 } } := by
    intro K
    cases K <;> first | rfl | exact drift_added _ hfree
  unfold storeInstance
  refine Level.trans (Level.trans (hadded.trans ?_) (.commit _)) (.rebuild_indexes _)
  exact .setInstance Std.ExtTreeMap.getElem?_insert_self

theorem bindInstance_level {copy : ServiceInstance}
    (hfree : (∀ eid ∈ copy.endpoints, r.claimable copy.instance_id eid) → copy.instance_id ∉ r.instances) :
    r.Level (r.bindInstance copy).2 := by
  have hclaimed := r.claimEndpoints_level copy.instance_id copy.endpoints
  have hinstances := claimEndpoints_instances copy.instance_id copy.endpoints r
  apply bindInstance_rule (P := fun o => r.Level o.2)
  case refused =>
    intro e t ht
    rwa [ht] at hclaimed
  case stored =>
    intro t ht
    rw [ht] at hclaimed hinstances
    refine hclaimed.trans (storeInstance_level ?_)
    rw [hinstances]
    exact hfree ((claimEndpoints_ok_iff _ _ r).1 ⟨t, ht⟩)

theorem Level.supersedeCurrent {id : ServiceInstanceId} {current : ServiceInstance} (h : r.instances[id]? = some current) :
    r.Level (r.supersedeCurrent id current) :=
  .write (fun K => by cases K <;> rfl) fun K => by cases K <;> first | rfl | exact size_replaced h

theorem Level.markSuperseded {id : ServiceInstanceId} {old : ServiceInstance} (h : r.instances[id]? = some old) :
    r.Level (r.markSuperseded id old) :=
  .write (fun K => by cases K <;> rfl) fun K => by cases K <;> first | rfl | exact size_replaced h

theorem register_instance_level (hnew : r.Accepts env → r.Admissible scan inst → r.assignedId inst ∉ r.instances) :
    r.Level (r.register_instance scan inst env).2 := by
  have hnext := Level.setNextId r (r.assignedNext inst)
  apply register_instance_state_rule (P := r.Level)
  case kept => exact fun _ _ _ => .write (fun K => by cases K <;> rfl) fun K => by cases K <;> rfl
  case superseded =>
    intro ha hs id current hc hlt
    refine hnext.trans ((Level.supersedeCurrent (currentInstance_some hc).1).trans (bindInstance_level fun hclaim => ?_))
    exact not_mem_replaced (currentInstance_some hc).1 (hnew ha ⟨hs, by rw [hc]; exact ⟨hlt, hclaim⟩⟩)
  case first =>
    intro ha hs hc hcov
    exact hnext.trans (bindInstance_level fun hclaim => hnew ha ⟨hs, by rw [hc]; exact ⟨hcov, hclaim⟩⟩)

theorem supersede_level {old_id : ServiceInstanceId} (hnew : r.Accepts env → ∀ old, r.instances[old_id]? = some old →
      (r.markSuperseded old_id old).Admissible scan inst → r.assignedId inst ∉ r.instances) :
    r.Level (r.supersede scan old_id inst env).2 := by
  have hregistered : r.Accepts env → ∀ old, r.instances[old_id]? = some old →
      r.Level ((r.markSuperseded old_id old).register_instance scan inst env).2 := by
    intro ha old hold
    exact (Level.markSuperseded hold).trans
      (register_instance_level fun _ hadm => not_mem_replaced hold (hnew ha old hold hadm))
  apply supersede_rule (P := fun o => r.Level o.2)
  case rejected => exact fun _ _ => .refl r
  case unknown => exact fun _ _ _ => .refl r
  case refused =>
    intro ha old hold e t ht
    have hlevel := hregistered ha old hold
    rwa [ht] at hlevel
  case registered =>
    intro ha old hold id t ht
    have hlevel := hregistered ha old hold
    rw [ht] at hlevel
    exact hlevel.trans (.recount fun K => by cases K <;> rfl)

theorem updateInstance_level {id : ServiceInstanceId} {write : ServiceInstance → ServiceInstance} {stale : RegistryError} :
    r.Level (r.updateInstance id write stale env).2 := by
  apply updateInstance_rule (P := fun o => r.Level o.2)
  case rejected => exact fun _ _ => .refl r
  case unknown => exact fun _ _ _ => .refl r
  case superseded => exact fun _ _ _ _ => .countStale r
  case updated => exact fun _ _ hold _ => (Level.setInstance hold).trans (.commit _)

theorem update_reachability_level {id : EndpointId} {rc : Enum Reachability} :
    r.Level (r.update_reachability id rc env).2 := by
  apply update_reachability_rule (P := fun o => r.Level o.2)
  case rejected => exact fun _ _ => .refl r
  case unknown => exact fun _ _ _ => .refl r
  case stale => exact fun _ _ _ _ _ => .countStale r
  case updated =>
    intro _ ep hep _
    have hset : r.Level { r with endpoints := r.endpoints.insert id { ep with reachability := rc } } := .setEndpoint hep
    refine Level.trans (hset.trans ?_) (.commit _)
    exact reclassifyOwner_rule (P := Level _) _ (.refl _) fun _ _ hold => .setInstance hold

theorem deregister_level {id : ServiceInstanceId} : r.Level (r.deregister id env).2 := by
  apply deregister_rule (P := fun o => r.Level o.2)
  case rejected => exact fun _ _ => .refl r
  case unknown => exact fun _ _ => .refl r
  case stale => exact fun _ _ _ _ _ => .countStale r
  case retired =>
    intro _ inst hold _
    exact .write (fun K => by cases K <;> rfl) fun K => by cases K <;> first | rfl | exact size_replaced hold

/-- The calls on instances. -/
theorem inst_level {e : Event} (hc : e.op.class = .inst) (hnew : r.Anew e) : r.Level (r.exec e.scan e.op).2 := by
  obtain ⟨op, scan, reply⟩ := e
  cases op <;> simp only [Op.class, reduceCtorEq] at hc
  case register_instance inst env => exact register_instance_level hnew
  case supersede old_id inst env => exact supersede_level hnew
  case update_reachability id rc env => exact update_reachability_level
  case deregister id env => exact deregister_level
  all_goals exact updateInstance_level

/-! ## Leases and notes -/

theorem acquire_lease_level {lease : LeaseDescriptor} (hnew : r.Accepts env → r.assignedLease lease ∉ r.leases) :
    r.Level (r.acquire_lease lease env).2 := by
  apply authorized_rule (P := fun o => r.Level o.2)
  case rejected => exact fun _ _ => .refl r
  case accepted =>
    intro ha
    have hfree := hnew ha
    unfold assignedLease at hfree
    by_cases hzero : lease.lease_id.value = 0
    · simp only [if_pos hzero] at hfree ⊢
      intro K
      cases K <;> first | rfl | exact drift_added _ hfree
    · simp only [if_neg hzero] at hfree ⊢
      intro K
      cases K <;> first | rfl | exact drift_added _ hfree

theorem renew_lease_level {id : LeaseId} : r.Level (r.renew_lease id env).2 := by
  apply renew_lease_rule (P := fun o => r.Level o.2)
  case rejected => exact fun _ _ => .refl r
  case unknown => exact fun _ _ _ => .refl r
  case refused => exact fun _ _ _ _ => .countStale r
  case renewed => exact fun _ _ hold _ => (Level.setLease hold).trans (.commit _)

theorem endLease_level {id : LeaseId} {state : LeaseState} : r.Level (r.endLease id state env).2 := by
  apply endLease_rule (P := fun o => r.Level o.2)
  case rejected => exact fun _ _ => .refl r
  case unknown => exact fun _ _ => .refl r
  case inactive => exact fun _ _ _ _ => .commit r
  case ended =>
    intro _ lease hold _
    exact .write (fun K => by cases K <;> rfl) fun K => by cases K <;> first | rfl | exact size_replaced hold

theorem mark_lease_level (id : LeaseId) : r.Level (r.mark_lease_revalidation_required id) := by
  apply mark_lease_revalidation_required_rule (P := r.Level)
  case kept => exact .refl r
  case marked =>
    intro lease hold _
    exact .write (fun K => by cases K <;> rfl) fun K => by cases K <;> first | rfl | exact size_replaced hold

theorem create_tombstone_level {tomb : TombstoneRecord} : r.Level (r.create_tombstone tomb env).2 := by
  apply authorized_rule (P := fun o => r.Level o.2)
  case rejected => exact fun _ _ => .refl r
  case accepted =>
    intro _
    dsimp only
    split
    · exact .write (fun K => by cases K <;> rfl) fun K => by cases K <;> rfl
    · exact .write (fun K => by cases K <;> rfl) fun K => by cases K <;> rfl

theorem invalidate_level {record : InvalidationRecord} : r.Level (r.invalidate record env).2 := by
  apply authorized_rule (P := fun o => r.Level o.2)
  case rejected => exact fun _ _ => .refl r
  case accepted => exact fun _ => .write (fun K => by cases K <;> rfl) fun K => by cases K <;> rfl

theorem query_and_account_level (q : RegistryQuery) : r.Level (r.query_and_account scan q).2 := by
  refine .recount fun K => ?_
  dsimp only
  split <;> cases K <;> rfl

/-- The calls on leases, tombstones and invalidations, and those that only read. -/
theorem note_level {e : Event} (hc : e.op.class = .lease ∨ e.op.class = .tombstone ∨ e.op.class = .note)
    (hnew : r.Anew e) : r.Level (r.exec e.scan e.op).2 := by
  obtain ⟨op, scan, reply⟩ := e
  cases op <;> simp only [Op.class, reduceCtorEq, or_self] at hc
  case acquire_lease lease env => exact acquire_lease_level hnew
  case renew_lease id env => exact renew_lease_level
  case expire_lease id env => exact endLease_level
  case revoke_lease id env => exact endLease_level
  case mark_lease_revalidation_required id => exact mark_lease_level id
  case create_tombstone tomb env => exact create_tombstone_level
  case invalidate record env => exact invalidate_level
  case query_and_account q => exact query_and_account_level q
  all_goals exact .refl r

/-! ## Incarnations -/

theorem expireLeaseOf_level (r : Registry) (inst : ServiceInstance) : r.Level (r.expireLeaseOf inst) := by
  unfold expireLeaseOf
  split_ifs
  · split
    · rename_i lease hold
      split_ifs
      · exact .write (fun K => by cases K <;> rfl) fun K => by cases K <;> first | rfl | exact size_replaced hold
      · exact .refl r
    · exact .refl r
  · exact .refl r

theorem releaseEndpoint_size (id : ServiceInstanceId) (eids : List EndpointId) (eps : Map .EndpointId EndpointDescriptor) :
    (eids.foldl (releaseEndpoint id) eps).size = eps.size := by
  induction eids generalizing eps with
  | nil => rfl
  | cons eid eids ih =>
    rw [List.foldl_cons, ih]
    unfold releaseEndpoint
    split
    · rename_i ep hep
      split_ifs
      · exact size_replaced hep
      · rfl
    · rfl

theorem revokeInstance_level (r : Registry) (boot : WorkerBootId) (id : ServiceInstanceId) :
    r.Level (revokeInstance boot r id) := by
  unfold revokeInstance
  split
  · rename_i inst hi
    split_ifs
    · have hstored : (r.expireLeaseOf inst).instances[id]? = some inst := by
        obtain ⟨_, _, hwrites⟩ := expireLeaseOf_writes r inst
        rw [hwrites]
        exact hi
      refine (r.expireLeaseOf_level inst).trans (.write (fun K => by cases K <;> rfl) fun K => ?_)
      cases K <;> first | rfl | exact size_replaced hstored | exact releaseEndpoint_size _ _ _
    · exact .refl r
  · exact .refl r

theorem revoke_level (r : Registry) (boot : WorkerBootId) : r.Level (r.revoke_boot_internal boot) := by
  have hwalk : ∀ (ids : List ServiceInstanceId) (s : Registry), s.Level (ids.foldl (revokeInstance boot) s) := by
    intro ids
    induction ids with
    | nil => exact fun s => .refl s
    | cons id ids ih => exact fun s => (s.revokeInstance_level boot id).trans (ih _)
  unfold revoke_boot_internal
  split_ifs
  · exact Level.trans (.write (fun K => by cases K <;> rfl) fun K => by cases K <;> rfl) (hwalk _ _)
  · exact .refl r

theorem Level.enterBoot (r : Registry) (worker : WorkerId) (boot : WorkerBootId) : r.Level (enterBoot worker boot r) :=
  .write (fun K => by cases K <;> rfl) fun K => by cases K <;> rfl

theorem incarnation_level {op : Op} (hc : op.class = .incarnation) : r.Level (r.exec scan op).2 := by
  cases op <;> simp only [Op.class, reduceCtorEq] at hc
  case begin_coordinator_epoch =>
    exact .write (fun K => by cases K <;> rfl) fun K => by
      cases K <;> first | rfl | exact Std.ExtTreeMap.size_map
  case adopt_worker worker =>
    have hboot : r.Level { r with next_boot := r.next_boot + 1 } :=
      .write (fun K => by cases K <;> rfl) fun K => by cases K <;> rfl
    exact adopt_worker_rule (P := r.Level) (fun _ => hboot.trans (.enterBoot _ _ _)) fun prev _ _ =>
      (hboot.trans (revoke_level _ prev)).trans (.enterBoot _ _ _)
  case mark_worker_died boot => exact r.revoke_level boot

/-! ## Runs -/

/-- A call that stores what it counts under no taken key moves the counters with the maps. -/
theorem exec_level {e : Event} (himage : e.op.class ≠ .image) (hnew : r.Anew e) : r.Level (r.exec e.scan e.op).2 := by
  rcases hc : e.op.class
  case descriptor => exact descriptor_level hc hnew
  case inst => exact inst_level hc hnew
  case lease => exact note_level (.inl hc) hnew
  case tombstone => exact note_level (.inr (.inl hc)) hnew
  case note => exact note_level (.inr (.inr hc)) hnew
  case incarnation => exact incarnation_level hc
  case image => exact absurd hc himage

/-- An image read to its end brings its own counts. -/
theorem restore_balanced (h : Header) (r : Registry) : (restore h r).Balanced := by
  obtain ⟨_, _, _, _, hindexes⟩ := rebuild_indexes_writes { r with
    authority := h.authority
    next_boot := h.next_boot
    next_id := h.next_id
    instances := r.instances.map fun _ => recoverInstance
    endpoints := r.endpoints.map fun _ => recoverEndpoint
    capabilities := r.capabilities.map fun _ => recoverCapability
    leases := r.leases.map fun _ => recoverLease }
  unfold restore
  dsimp only
  rw [hindexes]
  intro K
  cases K <;> rfl

theorem step_balanced {e : Event} (hr : r.Balanced) (hs : Step r e t) (hnew : r.Anew e) : t.Balanced := by
  rw [hs.state]
  by_cases himage : e.op.class = .image
  · obtain ⟨data, hop⟩ := Op.eq_load_from himage
    simp only [Anew, hop] at hnew
    rw [hop]
    apply load_from_rule (P := Balanced)
    case refused => exact fun _ => hr
    case broken => exact fun h hc => absurd (hnew h) hc
    case restored => exact fun _ _ => restore_balanced _ _
  · exact (exec_level himage hnew).balanced hr

theorem fresh_balanced : fresh.Balanced := by
  intro K
  cases K <;> decide +kernel

/-- In every run whose calls store what they count under keys that are free, the
counters are the sizes of the maps. -/
theorem population_exact (h : Lib.Reachable (Guarded Step Anew) fresh r) : r.Balanced :=
  h.inv Balanced fresh_balanced fun _ _ _ hr hst => step_balanced hr hst.1 hst.2

/-- The counters of a script that registers one record of five kinds. -/
theorem population_exact_sample : (fresh.after (Sample.setup ++
    [.register_runtime (Sample.runtime 2) Sample.env, .acquire_lease { lease_id := ⟨9⟩ } Sample.env])).Balanced := by
  have hmeets : Meets (fun r op => r.Anew (r.call op)) fresh (Sample.setup ++
      [.register_runtime (Sample.runtime 2) Sample.env, .acquire_lease { lease_id := ⟨9⟩ } Sample.env]) := by
    refine ⟨trivial, trivial, fun _ _ => ?_, ⟨fun _ => ?_, fun _ => ?_⟩, fun _ => ?_, trivial⟩
    all_goals decide +kernel
  exact population_exact hmeets.calls

/-- Two instances of one runtime are counted as two runtimes and stored as one. -/
theorem population_drifts :
    let r := fresh.after [.adopt_worker ⟨1⟩, .register_runtime (Sample.runtime 2) Sample.env,
      .register_runtime (Sample.runtime 3) Sample.env]
    r.Reachable ∧ r.accounting.runtimes = 2 ∧ r.runtimes.size = 1 :=
  ⟨Reachable.after (.refl _) _, by decide +kernel, by decide +kernel⟩

end Registry

end RuntimeRegistry
