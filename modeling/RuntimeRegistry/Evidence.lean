import RuntimeRegistry.Changes
/-!
# What a call does to the evidence

The endpoints, the leases and the descriptors that classifications look at, each
under one key, as `Changes` tells it of the instances.
-/
open Lib

namespace RuntimeRegistry

namespace Registry

variable {r s t : Registry} {env : AuthorityEnvelope} {scan : List ServiceInstanceId}

/-! ## Descriptors -/

section
variable {tag : IdTag} {gen : GenTag} {ρ : Type}

/-- A registration of a descriptor moves along a relation if its domain does. -/
theorem registerRecord_rel {R : Registry → Registry → Prop} {D : Domain tag gen ρ} {x : ρ}
    (hwrite : ∀ s accounting next_id, R s { s with accounting := accounting, next_id := next_id })
    (htrans : ∀ s t u, R s t → R t u → R s u) (hreplace : ∀ current x s, R s (D.commit x (D.replace current x s)).2)
    (hinsert : ∀ x s, R s (D.commit x (D.insert x s)).2) : R r (registerRecord D r x env).2 := by
  have hassign : R r (D.assign x r).2 := by
    unfold Domain.assign
    split
    · split_ifs
      · exact hwrite r r.accounting _
      · exact hwrite r r.accounting r.next_id
    · exact hwrite r r.accounting r.next_id
  refine registerRecord_rule D (P := fun o => R r o.2) ?rejected ?repeated ?stale ?replaced ?fenced ?inserted
  case rejected => exact fun _ _ => hwrite r r.accounting r.next_id
  case repeated => exact fun _ _ _ _ _ => hwrite r r.accounting r.next_id
  case stale => exact fun _ _ _ _ => hwrite r _ r.next_id
  case fenced => exact fun _ _ _ _ => hwrite r _ r.next_id
  case replaced => exact fun _ current _ _ => hreplace current x r
  case inserted => exact fun _ _ _ => htrans _ _ _ hassign (hinsert _ _)

end

/-- How a registration stores a record: in place of an older generation, or under a
key that no tombstone fences and that the registry may have assigned. -/
inductive Domain.Stores (D : Domain tag gen ρ) (r : Registry) (x : ρ) : Id tag → ρ → Prop
  | replaced (current : ρ) (hold : (D.table r)[D.id x]? = some current) (hlt : D.generation current < D.generation x) :
    Stores D r x (D.id x) x
  | inserted (hnone : (D.table r)[D.id x]? = none) (hfence : D.fenced x r = none) : Stores D r x (D.id x) x
  | assigned (withId : Id tag → ρ → ρ) (hid : D.withId = some withId) (hzero : (D.id x).value = 0)
      (hnone : (D.table r)[D.id x]? = none) (hfence : D.fenced x r = none) :
    Stores D r x ⟨r.next_id⟩ (withId ⟨r.next_id⟩ x)

/-- A registration leaves the table of its domain, or stores one record in it. -/
theorem registerRecord_table {D : Domain tag gen ρ} (hD : D.Lawful) (r : Registry) (x : ρ) (env : AuthorityEnvelope) :
    D.table (registerRecord D r x env).2 = D.table r ∨
      r.Accepts env ∧ ∃ k y, D.Stores r x k y ∧ D.table (registerRecord D r x env).2 = (D.table r).insert k y := by
  refine registerRecord_rule D (P := fun o => D.table o.2 = D.table r ∨
    r.Accepts env ∧ ∃ k y, D.Stores r x k y ∧ D.table o.2 = (D.table r).insert k y) ?rejected ?repeated ?stale ?replaced
    ?fenced ?inserted
  case rejected => exact fun _ _ => .inl rfl
  case repeated => exact fun _ _ _ _ _ => .inl rfl
  case stale => exact fun _ _ _ _ => .inl (hD.table_accounting _ _)
  case fenced => exact fun _ _ _ _ => .inl (hD.table_accounting _ _)
  case replaced =>
    intro ha current hold hlt
    refine .inr ⟨ha, D.id x, x, .replaced current hold hlt, ?_⟩
    rw [hD.table_commit, hD.table_replace]
  case inserted =>
    intro ha hnone hfence
    refine .inr ⟨ha, ?_⟩
    rcases hw : D.withId with _ | withId
    · refine ⟨D.id x, x, .inserted hnone hfence, ?_⟩
      rw [Domain.assign, hw, hD.table_commit, hD.table_insert]
    · refine Domain.assign_rule (P := fun y s => ∃ k z, D.Stores r x k z ∧
        D.table (D.commit y (D.insert y s)).2 = (D.table r).insert k z) D hw (fun h0 => ?_) fun _ => ?_
      · refine ⟨_, _, .assigned withId hw h0 hnone hfence, ?_⟩
        rw [hD.table_commit, hD.table_insert, hD.table_next, hD.id_withId withId hw]
      · refine ⟨_, _, .inserted hnone hfence, ?_⟩
        rw [hD.table_commit, hD.table_insert]

/-- The domain that a call registers a descriptor in. -/
inductive Registers : Op → {tag : IdTag} → {gen : GenTag} → {ρ : Type} → Domain tag gen ρ → ρ → AuthorityEnvelope → Prop
  | service (svc env) : Registers (.register_service svc env) services_ svc env
  | runtime (rt env) : Registers (.register_runtime rt env) runtimes_ rt env
  | endpoint (ep env) : Registers (.register_endpoint ep env) endpoints_ ep env
  | capability (cap env) : Registers (.register_capability cap env) capabilities_ cap env
  | backend (bd env) : Registers (.register_backend bd env) backends_ bd env
  | device (dd env) : Registers (.register_device dd env) devices_ dd env
  | protocol (pd env) : Registers (.register_protocol pd env) protocols_ pd env
  | node (nd env) : Registers (.register_node nd env) nodes_ nd env

theorem Registers.state {op : Op} {tag : IdTag} {gen : GenTag} {ρ : Type} {D : Domain tag gen ρ} {x : ρ}
    (h : Registers op D x env) : (r.exec scan op).2 = (registerRecord D r x env).2 := by
  cases h
  case service => simp only [exec, Outcome.map_snd, register_service, Outcome.void_snd]
  case protocol => simp only [exec, Outcome.map_snd, register_protocol, Outcome.void_snd]
  case node => simp only [exec, Outcome.map_snd, register_node, Outcome.void_snd]
  all_goals rfl

theorem exists_registers {op : Op} (hc : op.class = .descriptor) :
    ∃ (tag : IdTag) (gen : GenTag) (ρ : Type) (D : Domain tag gen ρ) (x : ρ) (env : AuthorityEnvelope), Registers op D x env := by
  cases op <;> simp only [Op.class, reduceCtorEq] at hc
  case register_service svc env => exact ⟨_, _, _, _, _, _, .service svc env⟩
  case register_runtime rt env => exact ⟨_, _, _, _, _, _, .runtime rt env⟩
  case register_endpoint ep env => exact ⟨_, _, _, _, _, _, .endpoint ep env⟩
  case register_capability cap env => exact ⟨_, _, _, _, _, _, .capability cap env⟩
  case register_backend bd env => exact ⟨_, _, _, _, _, _, .backend bd env⟩
  case register_device dd env => exact ⟨_, _, _, _, _, _, .device dd env⟩
  case register_protocol pd env => exact ⟨_, _, _, _, _, _, .protocol pd env⟩
  case register_node nd env => exact ⟨_, _, _, _, _, _, .node nd env⟩

/-- A registration of a descriptor moves along a relation if its domain does, whichever
of the eight it is. -/
theorem descriptor_rel {R : Registry → Registry → Prop} {op : Op} (hc : op.class = .descriptor)
    (hwrite : ∀ s accounting next_id, R s { s with accounting := accounting, next_id := next_id })
    (htrans : ∀ s t u, R s t → R t u → R s u)
    (hdomain : ∀ {tag : IdTag} {gen : GenTag} {ρ : Type} {D : Domain tag gen ρ} {x : ρ} {env : AuthorityEnvelope},
      Registers op D x env → (∀ current y s, R s (D.commit y (D.replace current y s)).2) ∧
        ∀ y s, R s (D.commit y (D.insert y s)).2) : R r (r.exec scan op).2 := by
  obtain ⟨_, _, _, D, x, env, h⟩ := exists_registers hc
  obtain ⟨hreplace, hinsert⟩ := hdomain h
  rw [h.state]
  exact registerRecord_rel hwrite htrans hreplace hinsert

/-! ## Endpoints -/

/-- The instance `id` claimed the endpoint: it is bound to it and, when it was taken
from another one, reachable and current. -/
def Claimed (id : ServiceInstanceId) (ep ep' : EndpointDescriptor) : Prop :=
  ep' = { ep with service_instance := id } ∨
    ep' = { ep with service_instance := id, reachability := Reachability.REACHABLE, freshness := Freshness.CURRENT }

theorem Claimed.trans {id : ServiceInstanceId} {ep ep' ep'' : EndpointDescriptor} (h₁ : Claimed id ep ep')
    (h₂ : Claimed id ep' ep'') : Claimed id ep ep'' := by
  rcases h₁ with rfl | rfl <;> rcases h₂ with rfl | rfl
  · exact .inl rfl
  · exact .inr rfl
  · exact .inr rfl
  · exact .inr rfl

/-- How a call can leave the endpoint under `eid`. -/
inductive EndpointChange (r : Registry) (op : Op) (t : Registry) (eid : EndpointId) : Prop
  | kept (h : t.endpoints[eid]? = r.endpoints[eid]?)
  | registered (ep : EndpointDescriptor) (env : AuthorityEnvelope) (stored : EndpointDescriptor)
      (hop : op = .register_endpoint ep env) (ha : r.Accepts env) (hs : endpoints_.Stores r ep eid stored)
      (h : t.endpoints[eid]? = some stored)
  | claimed (inst : ServiceInstance) (ep ep' : EndpointDescriptor) (hop : op.newInstance = some inst)
      (hmem : eid ∈ inst.endpoints) (hold : r.endpoints[eid]? = some ep) (hc : Claimed (r.assignedId inst) ep ep')
      (h : t.endpoints[eid]? = some ep')
  | updated (rc : Enum Reachability) (env : AuthorityEnvelope) (ep : EndpointDescriptor)
      (hop : op = .update_reachability eid rc env) (hu : r.UpdatesEndpoint env eid ep)
      (h : t.endpoints[eid]? = some { ep with reachability := rc })
  | released (boot : WorkerBootId) (ep : EndpointDescriptor) (hkill : op.Kills r boot)
      (hlive : r.authority.is_boot_live boot = true) (hold : r.endpoints[eid]? = some ep)
      (hholds : r.HoldsEndpoint boot r.instances.keys eid ep) (h : t.endpoints[eid]? = some (releasedEndpoint ep))
  | revalidated (ep : EndpointDescriptor) (hop : op = .begin_coordinator_epoch) (hold : r.endpoints[eid]? = some ep)
      (h : t.endpoints[eid]? = some (revalidateEndpoint ep))

theorem EndpointChange.congr {op : Op} {eid : EndpointId} (h : EndpointChange r op s eid)
    (he : t.endpoints = s.endpoints) : EndpointChange r op t eid := by
  cases h with
  | kept h => exact .kept (he ▸ h)
  | registered ep env stored hop ha hs h => exact .registered ep env stored hop ha hs (he ▸ h)
  | claimed inst ep ep' hop hmem hold hc h => exact .claimed inst ep ep' hop hmem hold hc (he ▸ h)
  | updated rc env ep hop hu h => exact .updated rc env ep hop hu (he ▸ h)
  | released boot ep hkill hlive hold hholds h => exact .released boot ep hkill hlive hold hholds (he ▸ h)
  | revalidated ep hop hold h => exact .revalidated ep hop hold (he ▸ h)

theorem claimEndpoint_endpoints (r : Registry) (id : ServiceInstanceId) (eid k : EndpointId) :
    (r.claimEndpoint id eid).2.endpoints[k]? = r.endpoints[k]? ∨
      k = eid ∧ ∃ ep ep', r.endpoints[k]? = some ep ∧ Claimed id ep ep' ∧
        (r.claimEndpoint id eid).2.endpoints[k]? = some ep' := by
  unfold claimEndpoint
  split
  · exact .inl rfl
  · rename_i ep hep
    split_ifs
    · rcases getElem?_insert_cases r.endpoints eid k { ep with service_instance := id } with ⟨rfl, h⟩ | ⟨_, h⟩
      · exact .inr ⟨rfl, ep, _, hep, .inl rfl, h⟩
      · exact .inl h
    · exact .inl rfl
    · rcases getElem?_insert_cases r.endpoints eid k { ep with
          service_instance := id, reachability := Reachability.REACHABLE, freshness := Freshness.CURRENT } with
        ⟨rfl, h⟩ | ⟨_, h⟩
      · exact .inr ⟨rfl, ep, _, hep, .inr rfl, h⟩
      · exact .inl h
    · exact .inl rfl

theorem claimEndpoints_endpoints (id : ServiceInstanceId) (eids : List EndpointId) (k : EndpointId) (r : Registry) :
    (r.claimEndpoints id eids).2.endpoints[k]? = r.endpoints[k]? ∨
      k ∈ eids ∧ ∃ ep ep', r.endpoints[k]? = some ep ∧ Claimed id ep ep' ∧
        (r.claimEndpoints id eids).2.endpoints[k]? = some ep' := by
  induction eids generalizing r with
  | nil => exact .inl rfl
  | cons eid eids ih =>
    have hone := claimEndpoint_endpoints r id eid k
    unfold claimEndpoints
    rcases hc : r.claimEndpoint id eid with ⟨e | _, s⟩ <;> rw [hc] at hone
    · -- the loop stops at the endpoint that is refused
      rcases hone with h | ⟨rfl, hclaimed⟩
      · exact .inl h
      · exact .inr ⟨List.mem_cons_self, hclaimed⟩
    · rw [Outcome.andThen_ok]
      dsimp only at hone
      rcases ih s with h | ⟨hmem, ep, ep', hep, hclaimed, h⟩ <;> rcases hone with h₁ | ⟨rfl, ep₁, ep₁', hep₁, hclaimed₁, h₁⟩
      · exact .inl (h.trans h₁)
      · exact .inr ⟨List.mem_cons_self, ep₁, ep₁', hep₁, hclaimed₁, h.trans h₁⟩
      · exact .inr ⟨List.mem_cons_of_mem _ hmem, ep, ep', h₁ ▸ hep, hclaimed, h⟩
      · obtain rfl : ep₁' = ep := Option.some.inj (h₁.symm.trans hep)
        exact .inr ⟨List.mem_cons_self, ep₁, ep', hep₁, hclaimed₁.trans hclaimed, h⟩

theorem bindInstance_endpoints (r : Registry) (copy : ServiceInstance) (k : EndpointId) :
    (r.bindInstance copy).2.endpoints[k]? = r.endpoints[k]? ∨
      k ∈ copy.endpoints ∧ ∃ ep ep', r.endpoints[k]? = some ep ∧ Claimed copy.instance_id ep ep' ∧
        (r.bindInstance copy).2.endpoints[k]? = some ep' := by
  have hclaims := claimEndpoints_endpoints copy.instance_id copy.endpoints k r
  have hkept : (r.bindInstance copy).2.endpoints = (r.claimEndpoints copy.instance_id copy.endpoints).2.endpoints := by
    refine bindInstance_rule (P := fun o => o.2.endpoints = _) ?_ ?_
    · intro e t ht
      rw [ht]
    · intro t ht
      rw [ht]
      exact (storeInstance_evidence t copy).endpoints
  rwa [hkept]

theorem register_instance_endpoints (inst : ServiceInstance) (k : EndpointId) :
    EndpointChange r (.register_instance inst env) (r.register_instance scan inst env).2 k := by
  refine register_instance_state_rule (P := fun t => EndpointChange r _ t k) ?kept ?superseded ?first
  case kept => exact fun _ _ _ => .kept rfl
  case first =>
    intro _ _ _ _
    rcases bindInstance_endpoints { r with next_id := r.assignedNext inst } { inst with instance_id := r.assignedId inst } k
      with h | ⟨hmem, ep, ep', hep, hc, h⟩
    · exact .kept h
    · exact .claimed inst ep ep' rfl hmem hep hc h
  case superseded =>
    intro _ _ id current _ _
    rcases bindInstance_endpoints ({ r with next_id := r.assignedNext inst }.supersedeCurrent id current)
      { inst with instance_id := r.assignedId inst } k with h | ⟨hmem, ep, ep', hep, hc, h⟩
    · exact .kept h
    · exact .claimed inst ep ep' rfl hmem hep hc h

theorem supersede_endpoints (old_id : ServiceInstanceId) (inst : ServiceInstance) (k : EndpointId) :
    EndpointChange r (.supersede old_id inst env) (r.supersede scan old_id inst env).2 k := by
  have hreg : ∀ old t, EndpointChange (r.markSuperseded old_id old) (.register_instance inst env) t k →
      EndpointChange r (.supersede old_id inst env) t k := by
    intro old t hc
    cases hc with
    | kept h => exact .kept h
    | claimed inst' ep ep' hop hmem hold hc h =>
      cases hop
      exact .claimed inst ep ep' rfl hmem hold hc h
    | registered _ _ _ hop => cases hop
    | updated _ _ _ hop => cases hop
    | released _ _ hkill => exact hkill.elim
    | revalidated _ hop => cases hop
  refine supersede_state_rule (P := fun t => EndpointChange r _ t k) (.kept rfl) fun _ old _ _ => ?_
  have hc : EndpointChange (r.markSuperseded old_id old) (.register_instance inst env)
      ((r.markSuperseded old_id old).register_instance scan inst env).2 k := register_instance_endpoints inst k
  exact hreg old _ (hc.congr rfl)

theorem register_endpoint_endpoints (ep : EndpointDescriptor) (k : EndpointId) :
    EndpointChange r (.register_endpoint ep env) (r.register_endpoint ep env).2 k := by
  rcases registerRecord_table endpoints_lawful r ep env with h | ⟨ha, eid, stored, hs, h⟩
  · exact .kept (congrArg (·[k]?) h)
  · rcases getElem?_insert_cases r.endpoints eid k stored with ⟨rfl, hk⟩ | ⟨_, hk⟩
    · exact .registered ep env stored rfl ha hs ((congrArg (·[eid]?) h).trans hk)
    · exact .kept ((congrArg (·[k]?) h).trans hk)

theorem update_reachability_endpoints (eid : EndpointId) (rc : Enum Reachability) (k : EndpointId) :
    EndpointChange r (.update_reachability eid rc env) (r.update_reachability eid rc env).2 k := by
  refine update_reachability_rule (P := fun o => EndpointChange r _ o.2 k) ?_ ?_ ?_ ?_
  · exact fun _ _ => .kept rfl
  · exact fun _ _ _ => .kept rfl
  · exact fun _ _ _ _ _ => .kept rfl
  · intro ha ep hep hgen
    have hw : EndpointChange r (.update_reachability eid rc env)
        { r with endpoints := r.endpoints.insert eid { ep with reachability := rc } } k := by
      rcases getElem?_insert_cases r.endpoints eid k { ep with reachability := rc } with ⟨rfl, h⟩ | ⟨_, h⟩
      · exact .updated rc env ep rfl ⟨ha, hep, hgen⟩ h
      · exact .kept h
    exact reclassifyOwner_rule (P := fun u => EndpointChange r _ u.commit_registry_generation k) ep.service_instance
      (hw.congr rfl) fun _ _ _ => hw.congr rfl

/-- What the death of a boot leaves under a key. -/
theorem revoke_endpoints_cases (r : Registry) (boot : WorkerBootId) (k : EndpointId) :
    (r.revoke_boot_internal boot).endpoints[k]? = r.endpoints[k]? ∨
      ∃ ep, r.authority.is_boot_live boot = true ∧ r.endpoints[k]? = some ep ∧
        r.HoldsEndpoint boot r.instances.keys k ep ∧
        (r.revoke_boot_internal boot).endpoints[k]? = some (releasedEndpoint ep) := by
  unfold revoke_boot_internal
  split_ifs with hlive
  · rw [walk_endpoints]
    rcases hep : r.endpoints[k]? with _ | ep
    · exact .inl rfl
    · by_cases hh : r.HoldsEndpoint boot r.instances.keys k ep
      · exact .inr ⟨ep, hlive, rfl, hh, congrArg some (if_pos hh)⟩
      · exact .inl (congrArg some (if_neg hh))
  · exact .inl rfl

theorem updateInstance_endpoints {op : Op} {id : ServiceInstanceId} {write : ServiceInstance → ServiceInstance}
    {stale : RegistryError} (k : EndpointId) : EndpointChange r op (r.updateInstance id write stale env).2 k :=
  updateInstance_rule (P := fun o => EndpointChange r op o.2 k) (fun _ _ => .kept rfl) (fun _ _ _ => .kept rfl)
    (fun _ _ _ _ => .kept rfl) fun _ _ _ _ => .kept rfl

theorem begin_coordinator_epoch_endpoints (k : EndpointId) :
    EndpointChange r .begin_coordinator_epoch r.begin_coordinator_epoch k := by
  have h : r.begin_coordinator_epoch.endpoints[k]? = r.endpoints[k]?.map revalidateEndpoint := by
    simp [begin_coordinator_epoch]
  rcases hep : r.endpoints[k]? with _ | ep
  · exact .kept (by rw [h, hep]; rfl)
  · exact .revalidated ep rfl hep (by rw [h, hep]; rfl)

/-- Every call other than `load_from` changes an endpoint in one of the ways listed. -/
theorem exec_endpoint_change (r : Registry) (scan : List ServiceInstanceId) (op : Op) (hop : op.class ≠ .image)
    (k : EndpointId) : EndpointChange r op (r.exec scan op).2 k := by
  rcases hc : op.class
  case descriptor =>
    by_cases hreg : ∃ ep env, op = .register_endpoint ep env
    · obtain ⟨ep, env, rfl⟩ := hreg
      exact register_endpoint_endpoints ep k
    · have h : (r.exec scan op).2.endpoints = r.endpoints := by
        refine descriptor_rel (R := fun s t => t.endpoints = s.endpoints) hc (fun _ _ _ => rfl)
          (fun _ _ _ h₁ h₂ => h₂.trans h₁) fun h => ?_
        cases h
        case endpoint => exact absurd ⟨_, _, rfl⟩ hreg
        case service => exact ⟨fun _ _ _ => (rebuild_indexes_evidence _).endpoints, fun _ _ => (rebuild_indexes_evidence _).endpoints⟩
        all_goals exact ⟨fun _ _ _ => rfl, fun _ _ => rfl⟩
      exact .kept (by rw [h])
  case inst =>
    cases op <;> simp only [Op.class, reduceCtorEq] at hc
    case register_instance inst env => exact register_instance_endpoints inst k
    case supersede old_id inst env => exact supersede_endpoints old_id inst k
    case update_reachability eid rc env => exact update_reachability_endpoints eid rc k
    case deregister id env =>
      exact deregister_rule (P := fun o => EndpointChange r _ o.2 k) (fun _ _ => .kept rfl) (fun _ _ => .kept rfl)
        (fun _ _ _ _ _ => .kept rfl) fun _ _ _ _ => .kept rfl
    case update_health id h env => exact updateInstance_endpoints k
    case update_readiness id rd env => exact updateInstance_endpoints k
    case update_freshness id f env => exact updateInstance_endpoints k
    case update_instance_reachability id rc env => exact updateInstance_endpoints k
  case lease | tombstone | note =>
    exact .kept (by rw [(r.exec_frame scan hop).endpoints (by simp [hc]) (by simp [hc]) (by simp [hc])])
  case incarnation =>
    cases op <;> simp only [Op.class, reduceCtorEq] at hc
    case begin_coordinator_epoch => exact begin_coordinator_epoch_endpoints k
    case adopt_worker worker =>
      refine adopt_worker_rule (P := fun t => EndpointChange r (.adopt_worker worker) t k) (fun _ => .kept rfl)
        fun prev hprev hne => ?_
      rcases revoke_endpoints_cases { r with next_boot := r.next_boot + 1 } prev k with h | ⟨ep, hlive, hold, hholds, h⟩
      · exact .kept h
      · exact .released prev ep ⟨hprev, hne⟩ hlive hold hholds h
    case mark_worker_died boot =>
      rcases r.revoke_endpoints_cases boot k with h | ⟨ep, hlive, hold, hholds, h⟩
      · exact .kept h
      · exact .released boot ep rfl hlive hold hholds h
  case image => exact absurd hc hop

/-! ## Services and capabilities -/

/-- Only registrations, a new epoch and `load_from` write services or capabilities. -/
theorem exec_descriptors (scan : List ServiceInstanceId) {op : Op} (hclass : op.class ≠ .descriptor)
    (himage : op.class ≠ .image) (hepoch : op ≠ .begin_coordinator_epoch) :
    (r.exec scan op).2.services = r.services ∧ (r.exec scan op).2.capabilities = r.capabilities := by
  have h := r.exec_writes scan op
  rcases hc : op.class <;> rw [hc] at h
  case inst =>
    obtain ⟨_, _, _, _, _, _, _, _, _, _, _, _, h⟩ := h
    exact ⟨by rw [h], by rw [h]⟩
  case lease | tombstone =>
    obtain ⟨_, _, _, _, h, -⟩ := h
    exact ⟨by rw [h], by rw [h]⟩
  case note =>
    obtain ⟨_, _, _, h, -⟩ := h
    exact ⟨by rw [h], by rw [h]⟩
  case incarnation =>
    cases op <;> simp only [Op.class, reduceCtorEq] at hc
    case begin_coordinator_epoch => exact absurd rfl hepoch
    case adopt_worker worker =>
      obtain ⟨_, _, _, _, _, h⟩ := adopt_worker_writes r worker
      exact ⟨by simp only [exec, h], by simp only [exec, h]⟩
    case mark_worker_died boot =>
      obtain ⟨_, _, _, _, h⟩ := revoke_writes r boot
      exact ⟨by simp only [exec, mark_worker_died, h], by simp only [exec, mark_worker_died, h]⟩
  case descriptor => exact absurd hc hclass
  case image => exact absurd hc himage

/-- A call leaves the services, or stores the one it registers. -/
theorem exec_services (scan : List ServiceInstanceId) {op : Op} (himage : op.class ≠ .image) :
    (r.exec scan op).2.services = r.services ∨ ∃ svc env k stored, op = .register_service svc env ∧ r.Accepts env ∧
      services_.Stores r svc k stored ∧ (r.exec scan op).2.services = r.services.insert k stored := by
  by_cases hepoch : op = .begin_coordinator_epoch
  · rw [hepoch]
    exact .inl rfl
  by_cases hclass : op.class = .descriptor
  swap
  · exact .inl (exec_descriptors scan hclass himage hepoch).1
  by_cases hreg : ∃ svc env, op = .register_service svc env
  · obtain ⟨svc, env, rfl⟩ := hreg
    simp only [exec, Outcome.map_snd, register_service, Outcome.void_snd]
    rcases registerRecord_table services_lawful r svc env with h | ⟨ha, k, stored, hs, h⟩
    · exact .inl h
    · exact .inr ⟨svc, env, k, stored, rfl, ha, hs, h⟩
  · refine .inl (descriptor_rel (R := fun s t => t.services = s.services) hclass (fun _ _ _ => rfl)
      (fun _ _ _ h₁ h₂ => h₂.trans h₁) fun h => ?_)
    cases h
    case service => exact absurd ⟨_, _, rfl⟩ hreg
    all_goals exact ⟨fun _ _ _ => rfl, fun _ _ => rfl⟩

/-- A call leaves the capabilities, or stores the one it registers. -/
theorem exec_capabilities (scan : List ServiceInstanceId) {op : Op} (himage : op.class ≠ .image)
    (hepoch : op ≠ .begin_coordinator_epoch) :
    (r.exec scan op).2.capabilities = r.capabilities ∨ ∃ cap env k stored, op = .register_capability cap env ∧
      r.Accepts env ∧ capabilities_.Stores r cap k stored ∧
      (r.exec scan op).2.capabilities = r.capabilities.insert k stored := by
  by_cases hclass : op.class = .descriptor
  swap
  · exact .inl (exec_descriptors scan hclass himage hepoch).2
  by_cases hreg : ∃ cap env, op = .register_capability cap env
  · obtain ⟨cap, env, rfl⟩ := hreg
    rcases registerRecord_table capabilities_lawful r cap env with h | ⟨ha, k, stored, hs, h⟩
    · exact .inl h
    · exact .inr ⟨cap, env, k, stored, rfl, ha, hs, h⟩
  · refine .inl (descriptor_rel (R := fun s t => t.capabilities = s.capabilities) hclass (fun _ _ _ => rfl)
      (fun _ _ _ h₁ h₂ => h₂.trans h₁) fun h => ?_)
    cases h
    case capability => exact absurd ⟨_, _, rfl⟩ hreg
    case service =>
      exact ⟨fun _ _ _ => (rebuild_indexes_evidence _).capabilities, fun _ _ => (rebuild_indexes_evidence _).capabilities⟩
    all_goals exact ⟨fun _ _ _ => rfl, fun _ _ => rfl⟩

/-! ## Leases -/

/-- The id that an acquired lease is stored under: its own, or the next one for 0. -/
def assignedLease (r : Registry) (lease : LeaseDescriptor) : LeaseId :=
  if lease.lease_id.value = 0 then ⟨r.next_id⟩ else lease.lease_id

/-- The call ends the lease, or may store an inactive one in its place. -/
def EndsLease (r : Registry) (op : Op) (l : LeaseId) : Prop :=
  (∃ lease env, op = .acquire_lease lease env ∧ r.Accepts env ∧ r.assignedLease lease = l ∧
    lease.state ≠ LeaseState.ACTIVE) ∨
  (∃ env, (op = .expire_lease l env ∨ op = .revoke_lease l env) ∧ r.Accepts env) ∨
  op = .mark_lease_revalidation_required l ∨
  ∃ boot, op.Kills r boot ∧ r.authority.is_boot_live boot = true ∧ r.HoldsLease boot r.instances.keys l

/-- The lease is stored and active. -/
def ActiveLease (r : Registry) (l : LeaseId) : Prop := ∃ lease, r.leases[l]? = some lease ∧ lease.state = LeaseState.ACTIVE

theorem ActiveLease.insert {l k : LeaseId} {lease : LeaseDescriptor} (h : r.ActiveLease l)
    (ht : t.leases = r.leases.insert k lease) (hactive : k = l → lease.state = LeaseState.ACTIVE) : t.ActiveLease l := by
  obtain ⟨lease₀, hl, ha⟩ := h
  rcases getElem?_insert_cases r.leases k l lease with ⟨heq, hk⟩ | ⟨_, hk⟩
  · exact ⟨lease, by rw [ht, hk], hactive heq⟩
  · exact ⟨lease₀, by rw [ht, hk, hl], ha⟩

/-- The death of a live boot expires the leases of its instances, and no others. -/
theorem revoke_leases (r : Registry) (boot : WorkerBootId) (l : LeaseId) :
    r.authority.is_boot_live boot = true ∧ r.HoldsLease boot r.instances.keys l ∧
        (r.revoke_boot_internal boot).leases[l]? = r.leases[l]?.map expiredLease ∨
      ¬ (r.authority.is_boot_live boot = true ∧ r.HoldsLease boot r.instances.keys l) ∧
        (r.revoke_boot_internal boot).leases[l]? = r.leases[l]? := by
  unfold revoke_boot_internal
  split_ifs with hlive
  · rw [walk_leases]
    by_cases hh : r.HoldsLease boot r.instances.keys l
    · exact .inl ⟨hlive, hh, if_pos hh⟩
    · exact .inr ⟨fun h => hh h.2, if_neg hh⟩
  · exact .inr ⟨fun h => hlive h.1, rfl⟩

theorem endLease_active {l id : LeaseId} {state : LeaseState} (h : r.ActiveLease l) (hends : r.Accepts env → id ≠ l) :
    (r.endLease id state env).2.ActiveLease l := by
  refine endLease_rule (P := fun o => o.2.ActiveLease l) ?_ ?_ ?_ ?_
  · exact fun _ _ => h
  · exact fun _ _ => h
  · exact fun _ _ _ _ => h
  · exact fun ha lease _ _ => h.insert (k := id) rfl fun heq => absurd heq (hends ha)

theorem acquire_lease_active {l : LeaseId} {lease : LeaseDescriptor} (h : r.ActiveLease l)
    (hends : r.Accepts env → r.assignedLease lease = l → lease.state = LeaseState.ACTIVE) :
    (r.acquire_lease lease env).2.ActiveLease l := by
  refine authorized_rule (P := fun o => o.2.ActiveLease l) (fun _ _ => h) fun ha => ?_
  have hends := hends ha
  unfold assignedLease at hends
  by_cases hzero : lease.lease_id.value = 0
  · simp only [if_pos hzero] at hends ⊢
    exact h.insert (k := ⟨r.next_id⟩) rfl hends
  · simp only [if_neg hzero] at hends ⊢
    exact h.insert (k := lease.lease_id) rfl hends

/-- A lease stays active under every call that does not end it. -/
theorem ActiveLease.exec {op : Op} {l : LeaseId} (h : r.ActiveLease l) (scan : List ServiceInstanceId)
    (himage : op.class ≠ .image) (hepoch : op ≠ .begin_coordinator_epoch) (hends : ¬ r.EndsLease op l) :
    (r.exec scan op).2.ActiveLease l := by
  have hsame : ∀ t : Registry, t.leases = r.leases → t.ActiveLease l := fun t ht => by rwa [ActiveLease, ht]
  have hdies : ∀ boot, op.Kills r boot → ∀ s : Registry, s.leases = r.leases → s.instances = r.instances →
      s.authority = r.authority → (s.revoke_boot_internal boot).ActiveLease l := by
    intro boot hkill s hl hi hauth
    rcases s.revoke_leases boot l with ⟨hlive, hholds, _⟩ | ⟨_, hk⟩
    · refine absurd (.inr (.inr (.inr ⟨boot, hkill, hauth ▸ hlive, ?_⟩))) hends
      rwa [HoldsLease, hi] at hholds
    · rwa [ActiveLease, hk, hl]
  rcases hc : op.class
  case descriptor | inst | tombstone | note =>
    exact hsame _ ((r.exec_frame scan himage).leases (by simp [hc]) (by simp [hc]))
  case incarnation =>
    cases op <;> simp only [Op.class, reduceCtorEq] at hc
    case begin_coordinator_epoch => exact absurd rfl hepoch
    case adopt_worker worker =>
      refine adopt_worker_rule (P := fun t => t.ActiveLease l) (fun _ => hsame _ rfl) fun prev hprev hne => ?_
      exact hdies prev ⟨hprev, hne⟩ { r with next_boot := r.next_boot + 1 } rfl rfl rfl
    case mark_worker_died boot => exact hdies boot rfl r rfl rfl rfl
  case lease =>
    cases op <;> simp only [Op.class, reduceCtorEq] at hc
    case acquire_lease lease env =>
      refine acquire_lease_active h fun ha hid => ?_
      by_contra hstate
      exact hends (.inl ⟨lease, env, rfl, ha, hid, hstate⟩)
    case renew_lease id env =>
      refine renew_lease_rule (P := fun o => o.2.ActiveLease l) ?_ ?_ ?_ ?_
      · exact fun _ _ => h
      · exact fun _ _ _ => h
      · exact fun _ _ _ _ => h
      · exact fun _ lease _ _ => h.insert (k := id) rfl fun _ => rfl
    case expire_lease id env =>
      exact endLease_active h fun ha heq => hends (.inr (.inl ⟨env, .inl (heq ▸ rfl), ha⟩))
    case revoke_lease id env =>
      exact endLease_active h fun ha heq => hends (.inr (.inl ⟨env, .inr (heq ▸ rfl), ha⟩))
    case mark_lease_revalidation_required id =>
      refine mark_lease_revalidation_required_rule (P := fun t => t.ActiveLease l) h fun lease _ _ => ?_
      exact h.insert (k := id) rfl fun heq => absurd (.inr (.inr (.inl (heq ▸ rfl)))) hends
  case image => exact absurd hc himage

end Registry

end RuntimeRegistry
