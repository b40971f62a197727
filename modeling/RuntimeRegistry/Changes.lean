import RuntimeRegistry.Footprints
/-!
# What a call does to one instance

A call other than `load_from` either leaves the record of an instance or changes
it in one of a few ways. Each way is told with the reason the call had for it, so
an invariant over the instances needs one case for each way and not one for each
call.
-/
open Lib

namespace RuntimeRegistry

/-- The instance that the call registers. -/
def Op.newInstance : Op → Option ServiceInstance
  | .register_instance inst _ | .supersede _ inst _ => some inst
  | _ => none

/-- The instance that the call updates, and its write. -/
def Op.updates : Op → Option (ServiceInstanceId × (ServiceInstance → ServiceInstance))
  | .update_health id h _ => some (id, fun inst => { inst with health := h })
  | .update_readiness id rd _ => some (id, fun inst => { inst with readiness := rd })
  | .update_freshness id f _ => some (id, fun inst => { inst with freshness := f })
  | .update_instance_reachability id rc _ => some (id, fun inst => { inst with reachability := rc })
  | _ => none

theorem newInstance_call {op : Op} {inst : ServiceInstance} (h : op.newInstance = some inst) :
    op.class = .inst ∧ ∃ env, op.envelope = some env := by
  cases op <;> first | exact ⟨rfl, _, rfl⟩ | cases h

theorem updates_class {op : Op} {id : ServiceInstanceId} {write : ServiceInstance → ServiceInstance}
    (h : op.updates = some (id, write)) : op.class = .inst := by
  cases op <;> first | rfl | cases h

/-- The call ends the incarnation of a boot. -/
def Op.Kills (r : Registry) : Op → WorkerBootId → Prop
  | .mark_worker_died boot, b => b = boot
  | .adopt_worker worker, b => r.authority.current_boot[worker]? = some b ∧ b ≠ ⟨r.next_boot + 1⟩
  | _, _ => False

namespace Registry

variable {r s t : Registry} {env : AuthorityEnvelope} {scan : List ServiceInstanceId}

/-! ## Classification -/

/-- The two agree on what a classification looks at. -/
structure SameEvidence (r t : Registry) : Prop where
  live_boots : t.authority.live_boots = r.authority.live_boots
  services : t.services = r.services
  endpoints : t.endpoints = r.endpoints
  capabilities : t.capabilities = r.capabilities
  leases : t.leases = r.leases

theorem SameEvidence.trans (h₁ : SameEvidence r s) (h₂ : SameEvidence s t) : SameEvidence r t :=
  ⟨h₂.1.trans h₁.1, h₂.2.trans h₁.2, h₂.3.trans h₁.3, h₂.4.trans h₁.4, h₂.5.trans h₁.5⟩

theorem requirementsFound_congr (hs : t.services = r.services) (hc : t.capabilities = r.capabilities) :
    t.requirementsFound = r.requirementsFound := by
  have hcapability : t.capabilityFound = r.capabilityFound := by
    funext inst req
    simp only [capabilityFound, hc]
  funext inst
  simp only [requirementsFound, hs, hcapability]

theorem SameEvidence.reclassify (h : SameEvidence r t) (inst : ServiceInstance) :
    t.reclassify_lifecycle inst = r.reclassify_lifecycle inst := by
  have hfound : t.requirementsFound = r.requirementsFound := requirementsFound_congr h.services h.capabilities
  have hlease : t.leaseActive = r.leaseActive := by
    funext id
    rw [leaseActive, leaseActive, h.leases]
  simp only [reclassify_lifecycle, classify, h.endpoints, hfound, hlease, RegistryAuthority.is_boot_live, h.live_boots]

/-! ## Instances -/

/-- The call may write the instance: its envelope is accepted and names no other
generation. -/
def Authorizes (r : Registry) (op : Op) (old : ServiceInstance) : Prop :=
  ∃ env, op.envelope = some env ∧ r.Accepts env ∧ generation_is_current_generation env old = true

/-- An update of the endpoint under the envelope is accepted. -/
def UpdatesEndpoint (r : Registry) (env : AuthorityEnvelope) (eid : EndpointId) (ep : EndpointDescriptor) : Prop :=
  r.Accepts env ∧ r.endpoints[eid]? = some ep ∧
    ¬ (env.endpoint_generation.value ≠ 0 ∧ env.endpoint_generation ≠ ep.generation)

/-- The call updates an endpoint that is bound to the instance. -/
def Refreshes (r : Registry) (op : Op) (k : ServiceInstanceId) : Prop :=
  ∃ eid rc env ep, op = .update_reachability eid rc env ∧ r.UpdatesEndpoint env eid ep ∧ ep.service_instance = k ∧
    k.value ≠ 0

/-- The call puts an end to the instance: it is the current one of the service of
a newer registration, or named by `supersede`. -/
def Replaces (r : Registry) (op : Op) (k : ServiceInstanceId) (old : ServiceInstance) : Prop :=
  (∃ inst, op.newInstance = some inst ∧ r.IsCurrent inst.service_id k old ∧
    old.instance_generation < inst.instance_generation) ∨
  ∃ inst env, op = .supersede k inst env ∧ r.Accepts env

/-- How a call can leave the record under `k`. -/
inductive Change (r : Registry) (op : Op) (t : Registry) (k : ServiceInstanceId) : Prop
  | kept (h : t.instances[k]? = r.instances[k]?)
  | updated (write : ServiceInstance → ServiceInstance) (old : ServiceInstance) (hop : op.updates = some (k, write))
      (ha : r.Authorizes op old) (hold : r.instances[k]? = some old)
      (h : t.instances[k]? = some (t.reclassify_lifecycle (write old)))
  | refreshed (old : ServiceInstance) (hop : r.Refreshes op k) (hold : r.instances[k]? = some old)
      (h : t.instances[k]? = some (t.reclassify_lifecycle old))
  | stored (inst : ServiceInstance) (hop : op.newInstance = some inst) (hid : k = r.assignedId inst)
      (hservice : inst.service_id ∈ r.services)
      (h : t.instances[k]? = some (t.reclassify_lifecycle { inst with instance_id := k }))
  | superseded (old : ServiceInstance) (hold : r.instances[k]? = some old) (hwhy : r.Replaces op k old)
      (h : t.instances[k]? = some { old with lifecycle := Lifecycle.SUPERSEDED })
  | retired (env : AuthorityEnvelope) (old : ServiceInstance) (hop : op = .deregister k env) (ha : r.Authorizes op old)
      (hold : r.instances[k]? = some old) (h : t.instances[k]? = some { old with lifecycle := Lifecycle.RETIRED })
  | dead (old : ServiceInstance) (hkill : op.Kills r old.boot) (hlive : r.authority.is_boot_live old.boot = true)
      (hold : r.instances[k]? = some old) (h : t.instances[k]? = some (deadInstance old))
  | revalidated (old : ServiceInstance) (hop : op = .begin_coordinator_epoch) (hold : r.instances[k]? = some old)
      (h : t.instances[k]? = some (revalidateInstance old))

/-- Only the instances and the evidence of the end state matter. -/
theorem Change.congr {op : Op} {k : ServiceInstanceId} (h : Change r op s k) (hi : t.instances = s.instances)
    (he : SameEvidence s t) : Change r op t k := by
  cases h with
  | kept h => exact .kept (by rw [hi, h])
  | updated write old hop ha hold h => exact .updated write old hop ha hold (by rw [hi, h, he.reclassify])
  | refreshed old hop hold h => exact .refreshed old hop hold (by rw [hi, h, he.reclassify])
  | stored inst hop hid hs h => exact .stored inst hop hid hs (by rw [hi, h, he.reclassify])
  | superseded old hold hwhy h => exact .superseded old hold hwhy (by rw [hi, h])
  | retired env old hop ha hold h => exact .retired env old hop ha hold (by rw [hi, h])
  | dead old hkill hlive hold h => exact .dead old hkill hlive hold (by rw [hi, h])
  | revalidated old hop hold h => exact .revalidated old hop hold (by rw [hi, h])

theorem getElem?_insert_cases {tag : IdTag} {ρ : Type} (m : Map tag ρ) (k k' : Id tag) (x : ρ) :
    k = k' ∧ (m.insert k x)[k']? = some x ∨ k ≠ k' ∧ (m.insert k x)[k']? = m[k']? := by
  by_cases h : k = k'
  · exact .inl ⟨h, by simp [h]⟩
  · exact .inr ⟨h, by simp [Std.ExtTreeMap.getElem?_insert, h]⟩

theorem insert_again {tag : IdTag} {ρ : Type} (m : Map tag ρ) (k : Id tag) (x y : ρ) :
    (m.insert k x).insert k y = m.insert k y := by
  refine Std.ExtTreeMap.ext_getElem? fun i => ?_
  simp only [Std.ExtTreeMap.getElem?_insert]
  split_ifs <;> rfl

theorem insert_comm {tag : IdTag} {ρ : Type} (m : Map tag ρ) {k k' : Id tag} (h : k ≠ k') (x y : ρ) :
    (m.insert k x).insert k' y = (m.insert k' y).insert k x := by
  refine Std.ExtTreeMap.ext_getElem? fun i => ?_
  simp only [Std.ExtTreeMap.getElem?_insert, Std.LawfulEqCmp.compare_eq_iff_eq]
  split_ifs with h₁ h₂
  · exact absurd (h₂.trans h₁.symm) h
  · rfl
  · rfl
  · rfl

theorem updateInstance_change {op : Op} {id : ServiceInstanceId} {write : ServiceInstance → ServiceInstance}
    {stale : RegistryError} (hop : op.updates = some (id, write)) (henv : op.envelope = some env) (k : ServiceInstanceId) :
    Change r op (r.updateInstance id write stale env).2 k := by
  refine updateInstance_rule (P := fun o => Change r op o.2 k) ?_ ?_ ?_ ?_
  · exact fun _ _ => .kept rfl
  · exact fun _ _ _ => .kept rfl
  · exact fun _ _ _ _ => .kept rfl
  · intro ha inst hi hgen
    rcases getElem?_insert_cases r.instances id k (r.reclassify_lifecycle (write inst)) with ⟨rfl, h⟩ | ⟨_, h⟩
    · refine .updated write inst hop ⟨env, henv, ha, hgen⟩ hi (h.trans (congrArg some ?_))
      exact (SameEvidence.reclassify ⟨rfl, rfl, rfl, rfl, rfl⟩ _).symm
    · exact .kept h

theorem update_reachability_change (eid : EndpointId) (rc : Enum Reachability) (k : ServiceInstanceId) :
    Change r (.update_reachability eid rc env) (r.update_reachability eid rc env).2 k := by
  refine update_reachability_rule (P := fun o => Change r _ o.2 k) ?_ ?_ ?_ ?_
  · exact fun _ _ => .kept rfl
  · exact fun _ _ _ => .kept rfl
  · exact fun _ _ _ _ _ => .kept rfl
  · intro ha ep hep hgen
    refine reclassifyOwner_rule (P := fun u => Change r _ u.commit_registry_generation k) ep.service_instance (.kept rfl)
      fun h0 inst hi => ?_
    rcases getElem?_insert_cases r.instances ep.service_instance k
      (reclassify_lifecycle { r with endpoints := r.endpoints.insert eid { ep with reachability := rc } } inst) with
      ⟨rfl, h⟩ | ⟨_, h⟩
    · refine .refreshed inst ⟨eid, rc, env, ep, rfl, ⟨ha, hep, hgen⟩, rfl, h0⟩ hi (h.trans (congrArg some ?_))
      exact (SameEvidence.reclassify ⟨rfl, rfl, rfl, rfl, rfl⟩ _).symm
    · exact .kept h

theorem claimEndpoints_instances (id : ServiceInstanceId) (eids : List EndpointId) (r : Registry) :
    (r.claimEndpoints id eids).2.instances = r.instances := by
  obtain ⟨_, _, h⟩ := claimEndpoints_writes id eids r
  rw [h]

theorem rebuild_indexes_evidence (r : Registry) : SameEvidence r r.rebuild_indexes := by
  obtain ⟨_, _, _, _, h⟩ := rebuild_indexes_writes r
  rw [h]
  exact ⟨rfl, rfl, rfl, rfl, rfl⟩

theorem storeInstance_evidence (r : Registry) (copy : ServiceInstance) : SameEvidence r (r.storeInstance copy) := by
  unfold storeInstance
  dsimp only
  refine SameEvidence.trans ?_ (rebuild_indexes_evidence _)
  exact ⟨rfl, rfl, rfl, rfl, rfl⟩

/-- What binding and storing an instance leaves under a key. -/
theorem bindInstance_instances (r : Registry) (copy : ServiceInstance) (k : ServiceInstanceId) :
    (r.bindInstance copy).2.instances[k]? = r.instances[k]? ∨
      k = copy.instance_id ∧ (r.bindInstance copy).2.instances[k]? =
        some ((r.bindInstance copy).2.reclassify_lifecycle copy) := by
  refine bindInstance_rule (P := fun o => o.2.instances[k]? = _ ∨ k = _ ∧ o.2.instances[k]? =
    some (o.2.reclassify_lifecycle copy)) ?_ ?_
  · intro e t ht
    have hkept := claimEndpoints_instances copy.instance_id copy.endpoints r
    rw [ht] at hkept
    exact .inl (by rw [hkept])
  · intro t ht
    have hkept := claimEndpoints_instances copy.instance_id copy.endpoints r
    rw [ht] at hkept
    dsimp only at hkept ⊢
    rw [storeInstance_instances, (storeInstance_evidence t copy).reclassify]
    split_ifs with hk
    · exact .inr ⟨hk.symm, rfl⟩
    · exact .inl (by rw [hkept])

theorem register_instance_change (inst : ServiceInstance) (k : ServiceInstanceId) :
    Change r (.register_instance inst env) (r.register_instance scan inst env).2 k := by
  refine register_instance_state_rule (P := fun t => Change r _ t k) ?kept ?superseded ?first
  case kept => exact fun _ _ _ => .kept rfl
  case first =>
    intro _ hs _ _
    rcases bindInstance_instances { r with next_id := r.assignedNext inst } { inst with instance_id := r.assignedId inst } k
      with h | ⟨rfl, h⟩
    · exact .kept h
    · exact .stored inst rfl rfl hs h
  case superseded =>
    intro _ hs id current hc hlt
    have hcurrent := currentInstance_some hc
    rcases bindInstance_instances ({ r with next_id := r.assignedNext inst }.supersedeCurrent id current)
      { inst with instance_id := r.assignedId inst } k with h | ⟨rfl, h⟩
    · rcases getElem?_insert_cases r.instances id k { current with lifecycle := Lifecycle.SUPERSEDED } with
        ⟨rfl, hsup⟩ | ⟨_, hkept⟩
      · exact .superseded current hcurrent.1 (.inl ⟨inst, rfl, hcurrent, hlt⟩) (h.trans hsup)
      · exact .kept (h.trans hkept)
    · exact .stored inst rfl rfl hs h

theorem supersede_change (old_id : ServiceInstanceId) (inst : ServiceInstance) (k : ServiceInstanceId) :
    Change r (.supersede old_id inst env) (r.supersede scan old_id inst env).2 k := by
  -- the registration runs in the state where the old instance is marked
  have hreg : ∀ old t, r.Accepts env → r.instances[old_id]? = some old →
      Change (r.markSuperseded old_id old) (.register_instance inst env) t k → Change r (.supersede old_id inst env) t k := by
    intro old t ha hold hc
    have hmark := getElem?_insert_cases r.instances old_id k { old with lifecycle := Lifecycle.SUPERSEDED }
    cases hc with
    | kept h =>
      rcases hmark with ⟨rfl, hk⟩ | ⟨_, hk⟩
      · exact .superseded old hold (.inr ⟨inst, env, rfl, ha⟩) (h.trans hk)
      · exact .kept (h.trans hk)
    | stored inst' hop hid hs h =>
      cases hop
      exact .stored inst rfl hid hs h
    | superseded old' hold' hwhy h =>
      obtain ⟨inst', hinst, hcur, hlt⟩ := hwhy.resolve_right (by simp)
      cases hinst
      rcases hmark with ⟨rfl, hk⟩ | ⟨_, hk⟩
      · obtain rfl : _ = old' := Option.some.inj (hk.symm.trans hold')
        exact absurd hcur.2.2 (by simp [historical])
      · have hstored : r.instances[k]? = some old' := hk.symm.trans hold'
        exact .superseded old' hstored (.inl ⟨inst, rfl, ⟨hstored, hcur.2⟩, hlt⟩) h
    | updated _ _ hop => cases hop
    | refreshed _ hop =>
      obtain ⟨_, _, _, _, hop, _⟩ := hop
      cases hop
    | retired _ _ hop => cases hop
    | dead _ hkill => exact hkill.elim
    | revalidated _ hop => cases hop
  refine supersede_state_rule (P := fun t => Change r _ t k) (.kept rfl) fun ha old hold _ => ?_
  have hc : Change (r.markSuperseded old_id old) (.register_instance inst env)
      ((r.markSuperseded old_id old).register_instance scan inst env).2 k := register_instance_change inst k
  exact (hreg old _ ha hold hc).congr rfl ⟨rfl, rfl, rfl, rfl, rfl⟩

theorem deregister_change (id k : ServiceInstanceId) :
    Change r (.deregister id env) (r.deregister id env).2 k := by
  refine deregister_rule (P := fun o => Change r _ o.2 k) ?_ ?_ ?_ ?_
  · exact fun _ _ => .kept rfl
  · exact fun _ _ => .kept rfl
  · exact fun _ _ _ _ _ => .kept rfl
  · intro ha inst hi hgen
    rcases getElem?_insert_cases r.instances id k { inst with lifecycle := Lifecycle.RETIRED } with ⟨rfl, h⟩ | ⟨_, h⟩
    · exact .retired env inst rfl ⟨env, rfl, ha, hgen⟩ hi h
    · exact .kept h

/-- What the death of a boot leaves under a key. -/
theorem revoke_instances_cases (r : Registry) (boot : WorkerBootId) (k : ServiceInstanceId) :
    (r.revoke_boot_internal boot).instances[k]? = r.instances[k]? ∨
      ∃ old, old.boot = boot ∧ r.authority.is_boot_live boot = true ∧ r.instances[k]? = some old ∧
        (r.revoke_boot_internal boot).instances[k]? = some (deadInstance old) := by
  rw [revoke_instances]
  rcases hi : r.instances[k]? with _ | old
  · exact .inl rfl
  · by_cases hdead : r.authority.is_boot_live boot = true ∧ old.boot = boot
    · exact .inr ⟨old, hdead.2, hdead.1, rfl, by simp [hdead.1, markDead, hdead.2]⟩
    · refine .inl ?_
      rw [not_and] at hdead
      by_cases hlive : r.authority.is_boot_live boot = true
      · simp [hlive, markDead, hdead hlive]
      · simp [hlive]

theorem mark_worker_died_change (boot : WorkerBootId) (k : ServiceInstanceId) :
    Change r (.mark_worker_died boot) (r.mark_worker_died boot) k := by
  rcases r.revoke_instances_cases boot k with h | ⟨old, rfl, hlive, hold, h⟩
  · exact .kept h
  · exact .dead old rfl hlive hold h

theorem adopt_worker_change (worker : WorkerId) (k : ServiceInstanceId) :
    Change r (.adopt_worker worker) (r.adopt_worker worker).2 k := by
  refine adopt_worker_rule (P := fun t => Change r (.adopt_worker worker) t k) (fun _ => .kept rfl) fun prev hprev hne => ?_
  rcases revoke_instances_cases { r with next_boot := r.next_boot + 1 } prev k with h | ⟨old, rfl, hlive, hold, h⟩
  · exact .kept h
  · exact .dead old ⟨hprev, hne⟩ hlive hold h

theorem begin_coordinator_epoch_change (k : ServiceInstanceId) :
    Change r .begin_coordinator_epoch r.begin_coordinator_epoch k := by
  have h : r.begin_coordinator_epoch.instances[k]? = r.instances[k]?.map revalidateInstance := by
    simp [begin_coordinator_epoch]
  rcases hi : r.instances[k]? with _ | old
  · exact .kept (by rw [h, hi]; rfl)
  · exact .revalidated old rfl hi (by rw [h, hi]; rfl)

/-- Every call other than `load_from` changes a record in one of the ways listed. -/
theorem exec_change (r : Registry) (scan : List ServiceInstanceId) (op : Op) (hop : op.class ≠ .image)
    (k : ServiceInstanceId) : Change r op (r.exec scan op).2 k := by
  by_cases hc : op.class = .inst ∨ op.class = .incarnation
  · cases op <;> simp only [Op.class, reduceCtorEq, or_self] at hc
    case register_instance inst env => exact register_instance_change inst k
    case update_health id h env => exact updateInstance_change rfl rfl k
    case update_readiness id rd env => exact updateInstance_change rfl rfl k
    case update_freshness id f env => exact updateInstance_change rfl rfl k
    case update_instance_reachability id rc env => exact updateInstance_change rfl rfl k
    case update_reachability eid rc env => exact update_reachability_change eid rc k
    case supersede old_id inst env => exact supersede_change old_id inst k
    case deregister id env => exact deregister_change id k
    case begin_coordinator_epoch => exact begin_coordinator_epoch_change k
    case adopt_worker worker => exact adopt_worker_change worker k
    case mark_worker_died boot => exact mark_worker_died_change boot k
  · rw [not_or] at hc
    exact .kept (by rw [(r.exec_frame scan hop).instances hc.1 hc.2])

end Registry

end RuntimeRegistry
